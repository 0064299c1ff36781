import Mathlib.Data.List.Basic
import RoomLedger.Proofs.Store.History

/-!
Contract: transactions whose calls mix have the effect of those that won, one
after another.

Owns:
- `Stage`, how far a transaction has come, and what it then knows of the blob;
- `Stage.step` and `Stage.stay`, by which each call keeps every stage;
- `Progress`, the stages of a crowd with the serial run of its winners so far;
- `Progress.follow`, by which every schedule keeps it.

A mark never comes back, because every write that is taken raises it. So a
pending transaction whose mark is still the present one has read what is there,
and its write is the one that it would make alone.

Does not own: which operations are transactions.
-/

namespace RoomLedger.Store

open RoomLedger.Text (Bytes)

variable {α : Type} {key : String} {isConflict : α → Prop}

/-! ## Stages -/

/-- How far a transaction has come in a crowd with that history. -/
inductive Stage (key : String) (isConflict : α → Prop) (index : Nat) (origin : Plan α)
    (store : MemoryStore) (history : List Act) : Plan α → Prop
  | untouched (absent : ∀ act ∈ history, act.index ≠ index) :
      Stage key isConflict index origin store history origin
  | pending {next : Except Error Version → Plan α} {version : Version} {contentType : String}
      {content : Bytes} {settle : Except Error Generation → α} {before between : List Act}
      (reads : origin = .read key next)
      (writes : next (.ok version) =
        .write key contentType content version.generation fun answer => .done (settle answer))
      (tells : ∀ answer,
        isConflict (settle answer) ↔
          ∃ error, answer = .error error ∧ error.isPrecondition = true)
      (split : history = before ++ .read index :: between)
      (alone : ∀ act ∈ before ++ between, act.index ≠ index)
      (raised : (store.version key).generation.number =
        version.generation.number + (winners between).length)
      (current : winners between = [] → store.version key = version) :
      Stage key isConflict index origin store history
        (.write key contentType content version.generation fun answer => .done (settle answer))
  | answered (result : α) (noWrite : ∀ isTaken, .write index isTaken ∉ history) :
      Stage key isConflict index origin store history (.done result)
  | settled (result : α) {before between later : List Act} {isTaken : Bool}
      (split : history = before ++ .read index :: between ++ .write index isTaken :: later)
      (alone : ∀ act ∈ before ++ between ++ later, act.index ≠ index)
      (overtaken : isConflict result ↔ winners between ≠ []) :
      Stage key isConflict index origin store history (.done result)

private theorem apart_concat {index : Nat} {acts : List Act} {act : Act}
    (apart : ∀ found ∈ acts, found.index ≠ index) (other : act.index ≠ index) :
    ∀ found ∈ acts ++ [act], found.index ≠ index := by
  intro found member
  rcases List.mem_append.mp member with earlier | last
  · exact apart found earlier
  · rw [List.mem_singleton.mp last]
    exact other

/-- A mark never comes back: it is the one that was read exactly if no write was
taken since. -/
theorem generation_eq_iff {store : MemoryStore} {version : Version} {between : List Act}
    (raised : (store.version key).generation.number =
      version.generation.number + (winners between).length)
    (current : winners between = [] → store.version key = version) :
    (store.version key).generation = version.generation ↔ winners between = [] := by
  constructor
  · intro same
    rw [same] at raised
    have none : (winners between).length = 0 := by omega
    exact List.length_eq_zero_iff.mp none
  · intro none
    rw [current none]

namespace Stage

variable {index : Nat} {origin plan : Plan α} {store : MemoryStore} {history : List Act}

/-- A call leads where its act says. -/
theorem leads (isKey : Store.isKey key = true) (isTransaction : origin.IsTransaction key isConflict)
    (stage : Stage key isConflict index origin store history plan) {act : Act}
    (made : plan.act? index store = some act) :
    act.Leads key store (plan.step store).2 := by
  cases stage with
  | untouched absent =>
      cases isTransaction with
      | done result => cases made
      | read next commits =>
          cases made
          rfl
  | @pending next version contentType content settle before between reads writes tells split alone
      raised current =>
      cases made
      rcases MemoryStore.write_cases isKey store contentType content version.generation with
        ⟨following, same, next, answer⟩ | ⟨error, answer, -⟩
      · simp only [Plan.step, answer, Except.isOk, Except.toBool, Act.Leads, Act.winner?,
          MemoryStore.version_after_self, Blob.version]
        rw [same]
        exact Generation.number_of_next? next
      · simp only [Plan.step, answer, Except.isOk, Except.toBool, Act.Leads, Act.winner?]
  | answered result noWrite => cases made
  | settled result split alone overtaken => cases made

/-- Another operation's call keeps the stage. -/
theorem stay {after : MemoryStore} {act : Act}
    (stage : Stage key isConflict index origin store history plan) (other : act.index ≠ index)
    (leads : act.Leads key store after) :
    Stage key isConflict index origin after (history ++ [act]) plan := by
  cases stage with
  | untouched absent => exact untouched (apart_concat absent other)
  | @pending next version contentType content settle before between reads writes tells split alone
      raised current =>
      have split : history ++ [act] = before ++ .read index :: (between ++ [act]) := by
        rw [split]
        simp
      have alone : ∀ found ∈ before ++ (between ++ [act]), found.index ≠ index := by
        rw [← List.append_assoc]
        exact apart_concat alone other
      -- A write of someone else that is taken counts as one winner and raises the
      -- mark by one; any other call leaves both as they are.
      unfold Act.Leads at leads
      cases winner : act.winner? with
      | none =>
          rw [winner] at leads
          rw [leads]
          refine pending reads writes tells split alone ?_ ?_
          · simpa [winners_singleton, winner] using raised
          · simpa [winners_singleton, winner] using current
      | some taker =>
          rw [winner] at leads
          refine pending reads writes tells split alone ?_ ?_
          · simp only [winners_append, winners_singleton, winner, Option.toList_some,
              List.length_append, List.length_singleton]
            omega
          · simp [winners_singleton, winner]
  | answered result noWrite =>
      apply answered
      intro isTaken member
      rcases List.mem_append.mp member with earlier | last
      · exact noWrite isTaken earlier
      · rw [← List.mem_singleton.mp last] at other
        exact other rfl
  | @settled result before between later isTaken split alone overtaken =>
      have split : history ++ [act] =
          before ++ .read index :: between ++ .write index isTaken :: (later ++ [act]) := by
        rw [split]
        simp
      have alone : ∀ found ∈ before ++ between ++ (later ++ [act]), found.index ≠ index := by
        rw [← List.append_assoc]
        exact apart_concat alone other
      exact settled result split alone overtaken

/-- The transaction's own call brings it to its next stage. -/
theorem step (isKey : Store.isKey key = true) (isTransaction : origin.IsTransaction key isConflict)
    (stage : Stage key isConflict index origin store history plan) {act : Act}
    (made : plan.act? index store = some act) :
    Stage key isConflict index origin (plan.step store).2 (history ++ [act])
      (plan.step store).1 := by
  cases stage with
  | untouched absent =>
      cases isTransaction with
      | done result => cases made
      | read next commits =>
          cases made
          have now := commits (store.version key)
          simp only [Plan.step, MemoryStore.read_of_isKey isKey]
          generalize writes : next (.ok (store.version key)) = rest at now
          cases now with
          | done result =>
              apply answered
              intro isTaken member
              rcases List.mem_append.mp member with earlier | last
              · exact absent _ earlier rfl
              · cases List.mem_singleton.mp last
          | write contentType content settle tells =>
              refine pending rfl writes tells rfl ?_ rfl fun _ => rfl
              simpa using absent
  | @pending next version contentType content settle before between reads writes tells split alone
      raised current =>
      cases made
      have overtaken : isConflict (settle (BlobStore.write store key contentType content
          version.generation).1) ↔ winners between ≠ [] := by
        have level := generation_eq_iff raised current
        rcases MemoryStore.write_cases isKey store contentType content version.generation with
          ⟨following, same, -, answer⟩ | ⟨error, answer, wrong⟩
        · rw [answer, tells]
          simp [level.mp same]
        · rw [answer, tells, ne_eq, ← level, ← ne_eq, ← wrong]
          simp
      have last (act : Act) :
          history ++ [act] = before ++ .read index :: between ++ [act] := by
        rw [split]
      have alone : ∀ found ∈ before ++ between ++ [], found.index ≠ index := by
        simpa using alone
      exact settled _ (last _) alone overtaken
  | answered result noWrite => cases made
  | settled result split alone overtaken => cases made

/-- A transaction whose write is taken does what it would do alone. -/
theorem run_of_taken (isKey : Store.isKey key = true)
    (isTransaction : origin.IsTransaction key isConflict)
    (stage : Stage key isConflict index origin store history plan)
    (taken : plan.act? index store = some (.write index true)) :
    ∃ result,
      origin.run store = (result, (plan.step store).2) ∧
      (plan.step store).1 = .done result := by
  cases stage with
  | untouched absent =>
      cases isTransaction with
      | done result => cases taken
      | read next commits => cases taken
  | @pending next version contentType content settle before between reads writes tells split alone
      raised current =>
      rcases MemoryStore.write_cases isKey store contentType content version.generation with
        ⟨following, same, -, answer⟩ | ⟨error, answer, -⟩
      -- A write that is taken names the present mark, so what was read is what is there.
      · have nobody : winners between = [] := (generation_eq_iff raised current).mp same
        refine ⟨settle (.ok following), ?_, ?_⟩
        · rw [reads, Plan.run, MemoryStore.read_of_isKey isKey, current nobody, writes]
          simp only [Plan.run, Plan.step, answer]
        · simp only [Plan.step, answer]
      · simp only [Plan.act?, answer, Except.isOk, Except.toBool] at taken
        cases taken
  | answered result noWrite => cases taken
  | settled result split alone overtaken => cases taken

end Stage

/-! ## Crowds -/

/-- How far a crowd of transactions has come since it found a store. -/
structure Progress (key : String) (isConflict : α → Prop) (origins : List (Plan α))
    (found : MemoryStore) (history : List Act) (crowd : Crowd MemoryStore α) : Prop where
  known : ∀ act ∈ history, act.index < crowd.plans.length
  stages : ∀ index plan, crowd.plans[index]? = some plan →
    ∃ origin,
      origins[index]? = some origin ∧
      Stage key isConflict index origin crowd.store history plan
  serial : ∃ served replies,
    (winners history).map (fun index => origins[index]?) = served.map some ∧
    Plan.runAll served found = (replies, crowd.store) ∧
    (winners history).map crowd.result? = replies.map some

private theorem map_eq_map_some_of_imp {β : Type} {first second : Nat → Option β}
    {indices : List Nat} {values : List β}
    (kept : ∀ index value, first index = some value → second index = some value)
    (same : indices.map first = values.map some) :
    indices.map second = values.map some := by
  induction indices generalizing values with
  | nil => exact same
  | cons index indices inductionHypothesis =>
      cases values with
      | nil => cases same
      | cons value values =>
          rw [List.map_cons, List.map_cons] at same ⊢
          obtain ⟨head, tail⟩ := List.cons.inj same
          rw [kept index value head, inductionHypothesis tail]

namespace Progress

variable {origins : List (Plan α)} {found : MemoryStore} {history : List Act}
  {crowd : Crowd MemoryStore α}

/-- Nothing has happened yet. -/
theorem start (key : String) (isConflict : α → Prop) (origins : List (Plan α))
    (found : MemoryStore) :
    Progress key isConflict origins found [] ⟨origins, found⟩ where
  known := by
    intro act member
    cases member
  stages := by
    intro index plan present
    refine ⟨plan, present, Stage.untouched ?_⟩
    intro act member
    cases member
  serial := ⟨[], [], rfl, rfl, rfl⟩

/-- The operation of a turn, its stage and what its call leads to. -/
theorem turn (isKey : Store.isKey key = true)
    (transactions : ∀ plan ∈ origins, plan.IsTransaction key isConflict)
    (progress : Progress key isConflict origins found history crowd) {index : Nat} {act : Act}
    (made : crowd.act? index = some act) :
    ∃ origin plan,
      origins[index]? = some origin ∧
      origin.IsTransaction key isConflict ∧
      crowd.plans[index]? = some plan ∧
      Stage key isConflict index origin crowd.store history plan ∧
      plan.act? index crowd.store = some act ∧
      act.Leads key crowd.store (plan.step crowd.store).2 := by
  cases present : crowd.plans[index]? with
  | none =>
      rw [Crowd.act?, present] at made
      cases made
  | some plan =>
      rw [Crowd.act?_of_some present] at made
      obtain ⟨origin, member, stage⟩ := progress.stages index plan present
      have isTransaction := transactions origin (List.mem_of_getElem? member)
      exact ⟨origin, plan, member, isTransaction, rfl, stage, made,
        stage.leads isKey isTransaction made⟩

/-- A turn leads where its act says. -/
theorem leads_advance (isKey : Store.isKey key = true)
    (transactions : ∀ plan ∈ origins, plan.IsTransaction key isConflict)
    (progress : Progress key isConflict origins found history crowd) {index : Nat} {act : Act}
    (made : crowd.act? index = some act) :
    act.Leads key crowd.store (crowd.advance index).store := by
  obtain ⟨origin, plan, -, -, present, -, -, leads⟩ := progress.turn isKey transactions made
  rw [Crowd.advance_of_some present]
  exact leads

/-- A turn in which no write is taken changes nothing in the store. -/
theorem store_advance (isKey : Store.isKey key = true)
    (transactions : ∀ plan ∈ origins, plan.IsTransaction key isConflict)
    (progress : Progress key isConflict origins found history crowd) {index : Nat}
    (loses : ∀ act, crowd.act? index = some act → act.winner? = none) :
    (crowd.advance index).store = crowd.store := by
  cases made : crowd.act? index with
  | none => rw [Crowd.advance_of_act?_eq_none made]
  | some act =>
      have leads := progress.leads_advance isKey transactions made
      rw [Act.Leads, loses act made] at leads
      exact leads

/-- A call keeps the stage of the operation that made it, and of all others. -/
theorem stages_advance (isKey : Store.isKey key = true)
    (transactions : ∀ plan ∈ origins, plan.IsTransaction key isConflict)
    (progress : Progress key isConflict origins found history crowd) {index other : Nat} {act : Act}
    {plan : Plan α} (made : crowd.act? index = some act)
    (present : (crowd.advance index).plans[other]? = some plan) :
    ∃ origin,
      origins[other]? = some origin ∧
      Stage key isConflict other origin (crowd.advance index).store (history ++ [act]) plan := by
  obtain ⟨origin, turning, member, isTransaction, found, stage, call, leads⟩ :=
    progress.turn isKey transactions made
  have store : (crowd.advance index).store = (turning.step crowd.store).2 := by
    rw [Crowd.advance_of_some found]
  rw [store]
  by_cases same : other = index
  · subst same
    rw [Crowd.getElem?_advance_self found] at present
    cases present
    exact ⟨origin, member, stage.step isKey isTransaction call⟩
  · rw [Crowd.getElem?_advance_of_ne crowd same] at present
    obtain ⟨otherOrigin, otherMember, otherStage⟩ := progress.stages other plan present
    refine ⟨otherOrigin, otherMember, otherStage.stay ?_ leads⟩
    rw [Plan.index_of_act? call]
    exact Ne.symm same

/-- A transaction whose write is taken in its turn does what it would do alone. -/
theorem run_of_taken (isKey : Store.isKey key = true)
    (transactions : ∀ plan ∈ origins, plan.IsTransaction key isConflict)
    (progress : Progress key isConflict origins found history crowd) {index : Nat}
    (taken : crowd.act? index = some (.write index true)) :
    ∃ origin result,
      origins[index]? = some origin ∧
      origin.run crowd.store = (result, (crowd.advance index).store) ∧
      (crowd.advance index).result? index = some result := by
  obtain ⟨origin, plan, member, isTransaction, present, stage, call, -⟩ :=
    progress.turn isKey transactions taken
  obtain ⟨result, alone, done⟩ := stage.run_of_taken isKey isTransaction call
  refine ⟨origin, result, member, ?_, ?_⟩
  · rw [Crowd.advance_of_some present]
    exact alone
  · rw [Crowd.result?, Crowd.getElem?_advance_self present, done]
    rfl

/-- A write that is taken in its turn gives the key the next mark. -/
theorem generation_advance (isKey : Store.isKey key = true)
    (transactions : ∀ plan ∈ origins, plan.IsTransaction key isConflict)
    (progress : Progress key isConflict origins found history crowd) {index : Nat}
    (taken : crowd.act? index = some (.write index true)) :
    ((crowd.advance index).store.version key).generation.number =
      (crowd.store.version key).generation.number + 1 := by
  obtain ⟨-, plan, -, -, present, -, -, leads⟩ := progress.turn isKey transactions taken
  rw [Crowd.advance_of_some present]
  exact leads

/-- In its turn an operation has its write taken, or nothing changes in the store. -/
theorem turn_cases (isKey : Store.isKey key = true)
    (transactions : ∀ plan ∈ origins, plan.IsTransaction key isConflict)
    (progress : Progress key isConflict origins found history crowd) (index : Nat) :
    crowd.act? index = some (.write index true) ∨
      ((crowd.advance index).store = crowd.store ∧ winners (crowd.act? index).toList = []) :=
  Crowd.turn_cases fun _ => progress.leads_advance isKey transactions

/-- The serial run has one more operation after a write that was taken, and is the
same after any other call. -/
theorem serial_advance (isKey : Store.isKey key = true)
    (transactions : ∀ plan ∈ origins, plan.IsTransaction key isConflict)
    (progress : Progress key isConflict origins found history crowd) {index : Nat} {act : Act}
    (made : crowd.act? index = some act) :
    ∃ served replies,
      (winners (history ++ [act])).map (fun index => origins[index]?) = served.map some ∧
      Plan.runAll served found = (replies, (crowd.advance index).store) ∧
      (winners (history ++ [act])).map (crowd.advance index).result? = replies.map some := by
  obtain ⟨served, replies, requests, run, results⟩ := progress.serial
  have results : (winners history).map (crowd.advance index).result? = replies.map some :=
    map_eq_map_some_of_imp (fun _ _ done => Crowd.result?_advance done index) results
  rcases progress.turn_cases isKey transactions index with taken | ⟨store, nobody⟩
  · rw [made] at taken
    cases taken
    obtain ⟨origin, reply, member, alone, told⟩ := progress.run_of_taken isKey transactions made
    refine ⟨served ++ [origin], replies ++ [reply], ?_, ?_, ?_⟩
    · simp [winners_singleton, Act.winner?, requests, member]
    · exact Plan.runAll_concat run alone
    · simp [winners_singleton, Act.winner?, results, told]
  · rw [made, Option.toList_some] at nobody
    refine ⟨served, replies, ?_, ?_, ?_⟩
    · rw [winners_append, nobody, List.append_nil]
      exact requests
    · rw [store]
      exact run
    · rw [winners_append, nobody, List.append_nil]
      exact results

/-- Every turn keeps the crowd in step with the serial run of its winners. -/
theorem advance (isKey : Store.isKey key = true)
    (transactions : ∀ plan ∈ origins, plan.IsTransaction key isConflict)
    (progress : Progress key isConflict origins found history crowd) (index : Nat) :
    Progress key isConflict origins found (history ++ (crowd.act? index).toList)
      (crowd.advance index) := by
  cases made : crowd.act? index with
  | none =>
      rw [Crowd.advance_of_act?_eq_none made, Option.toList_none, List.append_nil]
      exact progress
  | some act =>
      rw [Option.toList_some]
      constructor
      case known =>
        obtain ⟨-, plan, -, -, present, -, call, -⟩ := progress.turn isKey transactions made
        intro other member
        rw [Crowd.length_plans_advance]
        rcases List.mem_append.mp member with earlier | last
        · exact progress.known other earlier
        · rw [List.mem_singleton.mp last, Plan.index_of_act? call]
          exact (List.getElem?_eq_some_iff.mp present).1
      case stages =>
        intro other plan present
        exact progress.stages_advance isKey transactions made present
      case serial => exact progress.serial_advance isKey transactions made

/-- So does every schedule. -/
theorem follow (isKey : Store.isKey key = true)
    (transactions : ∀ plan ∈ origins, plan.IsTransaction key isConflict)
    (progress : Progress key isConflict origins found history crowd) (schedule : List Nat) :
    Progress key isConflict origins found (history ++ crowd.history schedule)
      (crowd.follow schedule) := by
  induction schedule generalizing history crowd with
  | nil =>
      rw [Crowd.history, List.append_nil, Crowd.follow_nil]
      exact progress
  | cons index schedule inductionHypothesis =>
      rw [Crowd.history, ← List.append_assoc, Crowd.follow_cons]
      exact inductionHypothesis (progress.advance isKey transactions index)

/-- A transaction that made its write had read once before, and it was told of a
conflict exactly if another write was taken in between. -/
theorem isConflict_iff (progress : Progress key isConflict origins found history crowd)
    {earlier later : List Act} {index : Nat} {isTaken : Bool}
    (split : history = earlier ++ .write index isTaken :: later) :
    ∃ result before between,
      crowd.result? index = some result ∧
      earlier = before ++ .read index :: between ∧
      (∀ act ∈ before ++ between, act.index ≠ index) ∧
      (isConflict result ↔ ∃ other, Act.write other true ∈ between) := by
  have member : Act.write index isTaken ∈ history := by
    rw [split]
    simp
  have inside : index < crowd.plans.length := progress.known _ member
  have present : crowd.plans[index]? = some crowd.plans[index] := List.getElem?_eq_getElem inside
  obtain ⟨origin, -, stage⟩ := progress.stages index _ present
  generalize crowd.plans[index] = plan at present stage
  cases stage with
  | untouched absent => exact absurd rfl (absent _ member)
  | @pending next version contentType content settle before between reads writes tells whole alone
      raised current =>
      rw [whole] at member
      simp only [List.mem_append, List.mem_cons, reduceCtorEq, false_or] at member
      exact absurd rfl (alone _ (List.mem_append.mpr member))
  | answered result noWrite => exact absurd member (noWrite isTaken)
  | @settled result before between after wasTaken whole alone overtaken =>
      refine ⟨result, before, between, ?_, ?_, ?_, ?_⟩
      · rw [Crowd.result?, present]
        rfl
      · have notBefore : Act.write index isTaken ∉ before ++ .read index :: between := by
          intro occurs
          simp only [List.mem_append, List.mem_cons, reduceCtorEq, false_or] at occurs
          exact alone _ (List.mem_append_left _ (List.mem_append.mpr occurs)) rfl
        have notAfter : Act.write index isTaken ∉ after := fun occurs =>
          alone _ (List.mem_append_right _ occurs) rfl
        rw [split] at whole
        exact ((List.append_cons_inj_of_notMem notBefore notAfter).mp whole.symm).1.symm
      · exact fun act occurs => alone act (List.mem_append_left _ occurs)
      · rw [overtaken, winners_ne_nil_iff]

end Progress

end RoomLedger.Store
