import SymexVP.BusLock
import SymexVP.EventLogs

/-!
# What a hart knows while it works

Between two waits a hart keeps track of a few facts: that no other hart holds the lock,
that its reservation is good as long as it holds the lock, that its last load-reserved or
its last atomic load is undisturbed. Each call needs some of these facts and leaves
others. Calls that only ever need what the calls before them leave are disciplined, which
is a property of the code alone; every function of the memory interface has it.
-/

namespace SymexVP.BusLock

variable {π : Type}

/-! ## What a log shows -/

/-- A load-reserved of the hart. -/
def IsReservation (hart : HartId) : Event π → Prop
  | .loaded other (.reserved _) => other = hart
  | _ => False

/-- The load of an atomic memory operation of the hart. -/
def IsAmoLoad (hart : HartId) : Event π → Prop
  | .loaded other .amo => other = hart
  | _ => False

/-- A store of another initiator. -/
def IsForeignStore (hart : HartId) : Event π → Prop
  | .stored initiator _ => initiator ≠ .hart hart
  | _ => False

/-- The hart's last load-reserved took its address from `object`, and no other initiator has
stored since. -/
def Reserved (hart : HartId) (object : Nat) (log : List (Event π)) : Prop :=
  EventLog.Since (IsReservation hart) (IsForeignStore hart) (.loaded hart (.reserved object)) log

/-- No other initiator has stored since the hart's last atomic load. -/
def AmoLoaded (hart : HartId) (log : List (Event π)) : Prop :=
  EventLog.Since (IsAmoLoad hart) (IsForeignStore hart) (.loaded hart .amo) log

/-! ## Facts -/

/-- What a hart knows. -/
structure Known where
  /-- No other hart holds the lock. -/
  right : Bool
  /-- If the hart holds the lock, its reservation is good. -/
  linked : Bool
  /-- The hart's last atomic load is undisturbed. -/
  loaded : Bool
  /-- The object of the hart's last load-reserved, which is undisturbed. -/
  fresh : Option Nat
  /-- The object `lr_addr` points to. -/
  marked : Option Nat

namespace Known

/-- What is left when other processes may have run. -/
def yielded (known : Known) : Known := ⟨false, known.linked, false, none, none⟩

/-- What is known once no other hart holds the lock. Nobody else has run if that was known. -/
def withRight (known : Known) : Known :=
  if known.right then known else { known.yielded with right := true }

/-- What a call needs. -/
def Allows (known : Known) : Call → Prop
  | .lock => known.right = true
  | .load (.reserved object) => known.marked = some object
  | .store .amo => known.right = true ∧ known.loaded = true
  | .store (.conditional object) => known.right = true ∧ known.fresh = some object
  | .store _ => known.right = true
  | .atomicStoreConditionalWord _ _ _ => known.linked = true
  | _ => True

/-- What a call leaves. -/
def after (known : Known) : Call → Known
  | .waitForAccessRights => known.withRight
  | .waitUntilUnlocked => { known.yielded with right := true }
  | .lock => { known with linked := false }
  | .unlock => { known with linked := true }
  | .setLrAddr object => { known with linked := false, marked := some object }
  | .load (.reserved object) => { known with linked := true, fresh := some object }
  | .load .amo => { known with loaded := true }
  | .atomicStoreConditionalWord _ _ _ | .sync _ | .waitWfi => known.yielded
  | _ => known

/-- One hart knows no more than another. -/
structure Below (known other : Known) : Prop where
  right : known.right = true → other.right = true
  linked : known.linked = true → other.linked = true
  loaded : known.loaded = true → other.loaded = true
  fresh : ∀ object, known.fresh = some object → other.fresh = some object
  marked : ∀ object, known.marked = some object → other.marked = some object

theorem Below.refl (known : Known) : known.Below known :=
  ⟨id, id, id, fun _ => id, fun _ => id⟩

theorem withRight_of_right {known : Known} (right : known.right = true) :
    known.withRight = known := by
  rw [withRight, if_pos right]

@[simp] theorem withRight_right (known : Known) : known.withRight.right = true := by
  unfold withRight
  split
  · assumption
  · rfl

@[simp] theorem withRight_linked (known : Known) : known.withRight.linked = known.linked := by
  unfold withRight
  split <;> rfl

theorem yielded_below_withRight (known : Known) : known.yielded.Below known.withRight :=
  ⟨nofun, by simp [yielded], nofun, nofun, nofun⟩

/-- A hart that knows more before a call knows more behind it. -/
theorem Below.after {known other : Known} (below : known.Below other) (call : Call) :
    (known.after call).Below (other.after call) := by
  obtain ⟨right, linked, loaded, fresh, marked⟩ := below
  have yields : known.yielded.Below other.yielded := ⟨nofun, linked, nofun, nofun, nofun⟩
  cases call with
  | waitForAccessRights =>
      by_cases known_right : known.right = true
      · rw [Known.after, Known.after, withRight_of_right known_right,
          withRight_of_right (right known_right)]
        exact ⟨right, linked, loaded, fresh, marked⟩
      · rw [Known.after, withRight, if_neg known_right]
        exact ⟨fun _ => withRight_right other, by simpa [Known.after, yielded] using linked,
          nofun, nofun, nofun⟩
  | waitUntilUnlocked => exact ⟨fun _ => rfl, linked, nofun, nofun, nofun⟩
  | lock => exact ⟨right, nofun, loaded, fresh, marked⟩
  | unlock => exact ⟨right, fun _ => rfl, loaded, fresh, marked⟩
  | setLrAddr object => exact ⟨right, nofun, loaded, fresh, fun _ => id⟩
  | load purpose =>
      cases purpose with
      | reserved object => exact ⟨right, fun _ => rfl, loaded, fun _ => id, marked⟩
      | amo => exact ⟨right, linked, fun _ => rfl, fresh, marked⟩
      | _ => exact ⟨right, linked, loaded, fresh, marked⟩
  | atomicStoreConditionalWord | sync | waitWfi => exact yields
  | _ => exact ⟨right, linked, loaded, fresh, marked⟩

theorem Below.allows {known other : Known} (below : known.Below other) {call : Call}
    (allows : known.Allows call) : other.Allows call := by
  cases call with
  | lock => exact below.right allows
  | load purpose =>
      cases purpose with
      | reserved object => exact below.marked object allows
      | _ => trivial
  | store purpose =>
      cases purpose with
      | amo => exact ⟨below.right allows.1, below.loaded allows.2⟩
      | conditional object => exact ⟨below.right allows.1, below.fresh object allows.2⟩
      | _ => exact below.right allows
  | atomicStoreConditionalWord => exact below.linked allows
  | _ => trivial

end Known

/-- Each call needs only what the calls before it leave, and a hart between two steps has a good
reservation if it holds the lock. -/
def Disciplined : Known → List Call → Prop
  | known, [] => known.linked = true
  | known, call :: rest => known.Allows call ∧ Disciplined (known.after call) rest

theorem Disciplined.mono {known other : Known} (below : known.Below other) {calls : List Call}
    (disciplined : Disciplined known calls) : Disciplined other calls := by
  induction calls generalizing known other with
  | nil => exact below.linked disciplined
  | cons call rest inductionHypothesis =>
      exact ⟨below.allows disciplined.1, inductionHypothesis (below.after call) disciplined.2⟩

/-! ## Code -/

/-- Behind the code a hart knows at least `other`. -/
def Leaves (known : Known) (code : List Call) (other : Known) : Prop :=
  ∀ rest, Disciplined other rest → Disciplined known (code ++ rest)

namespace Leaves

variable {known middle other : Known} {code more : List Call}

theorem nil : Leaves known [] known := fun _ => id

theorem call {call : Call} (allows : known.Allows call) : Leaves known [call] (known.after call) :=
  fun _ disciplined => ⟨allows, disciplined⟩

theorem append (first : Leaves known code middle) (second : Leaves middle more other) :
    Leaves known (code ++ more) other := by
  intro rest disciplined
  rw [List.append_assoc]
  exact first _ (second rest disciplined)

theorem weaken (leaves : Leaves known code middle) (below : other.Below middle) :
    Leaves known code other := fun rest disciplined => leaves rest (disciplined.mono below)

end Leaves

section Functions

variable {known : Known}

theorem leaves_waitForAccessRights (known : Known) :
    Leaves known [.waitForAccessRights] known.withRight := Leaves.call trivial

theorem leaves_unlock (known : Known) :
    Leaves known [.unlock] { known with linked := true } := Leaves.call trivial

/-- The walk of page tables costs nothing that is known with the right of access, nor anything
that is known without it. -/
theorem leaves_v2p (stable : known.Below known.withRight) (walk : Walk) :
    Leaves known (v2p walk) known := by
  have entry : Leaves known (concreteLoadData .pageTable) known := by
    have loaded : Leaves known.withRight [.load .pageTable] known.withRight := Leaves.call trivial
    exact ((leaves_waitForAccessRights known).append loaded).weaken stable
  have updated : Leaves known (concreteStoreData .pageTable) known := by
    have stored : Leaves known.withRight [.store .pageTable] known.withRight :=
      Leaves.call known.withRight_right
    refine ((leaves_waitForAccessRights known).append
      (stored.append (leaves_unlock _))).weaken ?_
    exact ⟨stable.right, fun _ => rfl, stable.loaded, stable.fresh, stable.marked⟩
  have walked : Leaves known (List.replicate walk.levels (concreteLoadData .pageTable)).flatten
      known := by
    generalize walk.levels = levels
    induction levels with
    | zero => exact Leaves.nil
    | succ levels inductionHypothesis =>
        rw [List.replicate_succ, List.flatten_cons]
        exact entry.append inductionHypothesis
  refine walked.append ?_
  split
  · exact updated
  · exact Leaves.nil

theorem below_withRight_of_right (right : known.right = true) : known.Below known.withRight := by
  rw [Known.withRight_of_right right]
  exact Known.Below.refl known

/-- What a load leaves is what its transaction leaves. -/
theorem leaves_symbolicLoadData {purpose : Purpose} {other : Known}
    (loads : Leaves known.withRight [.load purpose] other) (walk : Walk) :
    Leaves known (symbolicLoadData purpose walk) other := by
  have translated : Leaves known.withRight (v2p walk) known.withRight :=
    leaves_v2p (below_withRight_of_right known.withRight_right) walk
  exact ((leaves_waitForAccessRights known).append translated).append loads

/-- A store ends without the lock. -/
theorem leaves_symbolicStoreData {purpose : Purpose}
    (allows : known.withRight.Allows (.store purpose)) (walk : Walk) (marks : List Walk) :
    Leaves known (symbolicStoreData purpose walk marks)
      { known.withRight with linked := true } := by
  have stored : ∀ {known : Known} {purpose : Purpose},
      known.withRight.Allows (.store purpose) → ∀ walk : Walk,
      Leaves known ([.waitForAccessRights] ++ v2p walk ++ [.store purpose]) known.withRight := by
    intro known purpose allows walk
    have translated : Leaves known.withRight (v2p walk) known.withRight :=
      leaves_v2p (below_withRight_of_right known.withRight_right) walk
    have transaction : Leaves known.withRight [.store purpose] known.withRight :=
      Leaves.call allows
    exact ((leaves_waitForAccessRights known).append translated).append transaction
  induction marks generalizing known purpose walk with
  | nil =>
      have unlocked := (stored allows walk).append (leaves_unlock known.withRight)
      rwa [List.append_assoc, List.append_assoc] at unlocked
  | cons mark marks inductionHypothesis =>
      have right : known.withRight.withRight = known.withRight :=
        Known.withRight_of_right known.withRight_right
      have plain : known.withRight.withRight.Allows (.store .plain) := by
        rw [right]
        exact known.withRight_right
      have marked := inductionHypothesis plain mark
      rw [right] at marked
      exact ((stored allows walk).append marked).append (leaves_unlock _)

theorem leaves_lock (known : Known) :
    Leaves known lock { known.withRight with linked := false } := by
  have taken : Leaves known.withRight [.lock] { known.withRight with linked := false } :=
    Leaves.call known.withRight_right
  exact (leaves_waitForAccessRights known).append taken

theorem leaves_releaseLrScReservation (known : Known) :
    Leaves known releaseLrScReservation { known with linked := true } := by
  have cleared : Leaves known [.clearCounter] known := Leaves.call trivial
  exact cleared.append (leaves_unlock known)

/-- A load-reserved makes its own reservation, whatever `lr_addr` was before. -/
theorem leaves_lrW (known : Known) (object : Nat) (walk : Walk) :
    Leaves known (execute (.lrW object walk))
      { known.withRight with linked := true, fresh := some object, marked := some object } := by
  let marked : Known := { known.withRight with linked := false, marked := some object }
  have right : marked.withRight = marked := Known.withRight_of_right known.withRight_right
  have assigned : Leaves { known.withRight with linked := false } [.setLrAddr object] marked :=
    Leaves.call trivial
  have transaction : Leaves marked.withRight [.load (.reserved object)]
      { marked with linked := true, fresh := some object } := by
    rw [right]
    exact Leaves.call rfl
  have started : Leaves { marked with linked := true, fresh := some object } [.startCounter]
      { marked with linked := true, fresh := some object } := Leaves.call trivial
  have loaded := ((leaves_lock known).append assigned).append
    (leaves_symbolicLoadData transaction walk)
  exact loaded.append started

theorem leaves_executeAmo (known : Known) (walk storeWalk : Walk) (marks : List Walk) :
    Leaves known (execute (.executeAmo walk storeWalk marks))
      { known.withRight with linked := true, loaded := true } := by
  let locked : Known := { known.withRight with linked := false }
  let loaded : Known := { locked with loaded := true }
  have right : locked.withRight = locked := Known.withRight_of_right known.withRight_right
  have right' : loaded.withRight = loaded := Known.withRight_of_right known.withRight_right
  have transaction : Leaves locked.withRight [.load .amo] loaded := by
    rw [right]
    exact Leaves.call trivial
  have asserted : Leaves loaded [.assertLocked] loaded := Leaves.call trivial
  have allows : loaded.withRight.Allows (.store .amo) := by
    rw [right']
    exact ⟨known.withRight_right, rfl⟩
  have stored := leaves_symbolicStoreData allows storeWalk marks
  rw [right'] at stored
  exact ((leaves_lock known).append (leaves_symbolicLoadData transaction walk)).append
    (asserted.append stored)

/-- Behind every instruction a hart that holds the lock has a good reservation, if that was so
before. -/
theorem leaves_execute {known : Known} (linked : known.linked = true) (operation : Operation) :
    ∃ other : Known, other.linked = true ∧ Leaves known (execute operation) other := by
  cases operation with
  | none => exact ⟨known, linked, Leaves.nil⟩
  | load walk =>
      have transaction : Leaves known.withRight [.load .plain] known.withRight :=
        Leaves.call trivial
      exact ⟨_, known.withRight_linked.trans linked, leaves_symbolicLoadData transaction walk⟩
  | store walk marks =>
      have allows : known.withRight.Allows (.store .plain) := known.withRight_right
      exact ⟨_, rfl, leaves_symbolicStoreData allows walk marks⟩
  | lrW object walk => exact ⟨_, rfl, leaves_lrW known object walk⟩
  | scW object walk marks =>
      have stored : Leaves known [.atomicStoreConditionalWord object walk marks] known.yielded :=
        Leaves.call linked
      have cleared : Leaves known.yielded [.clearCounter] known.yielded := Leaves.call trivial
      exact ⟨known.yielded, linked, stored.append cleared⟩
  | executeAmo walk storeWalk marks => exact ⟨_, rfl, leaves_executeAmo known walk storeWalk marks⟩
  | wfi waits =>
      have released := leaves_releaseLrScReservation known
      cases waits with
      | false => exact ⟨_, rfl, released.append Leaves.nil⟩
      | true =>
          let free : Known := { known with linked := true }
          have waited : Leaves free [.waitWfi] free.yielded := Leaves.call trivial
          exact ⟨_, rfl, released.append waited⟩

/-- The end of a step, where the process may yield. -/
theorem disciplined_performanceAndSyncUpdate {known : Known} (linked : known.linked = true)
    (needSync : Bool) : Disciplined known (performanceAndSyncUpdate needSync) :=
  ⟨trivial, trivial, linked⟩

/-- A trap can be handled from anywhere. -/
theorem disciplined_handleTrap (known : Known) (needSync : Bool) :
    Disciplined known (handleTrap needSync) :=
  leaves_releaseLrScReservation known _ (disciplined_performanceAndSyncUpdate rfl needSync)

/-- What a hart knows between two steps. -/
def Known.idle : Known := ⟨false, true, false, none, none⟩

theorem disciplined_runStep (step : Step) : Disciplined Known.idle (runStep step) := by
  have stable : Known.idle.Below Known.idle.withRight := Known.yielded_below_withRight Known.idle
  have fetched : Leaves Known.idle (loadInstr step.fetch) Known.idle.withRight := by
    have loaded : Leaves Known.idle.withRight [.load .plain] Known.idle.withRight :=
      Leaves.call trivial
    exact (leaves_v2p stable step.fetch).append
      ((leaves_waitForAccessRights Known.idle).append loaded)
  obtain ⟨executed, linked, executes⟩ :=
    leaves_execute (Known.withRight_linked Known.idle) step.operation
  have interrupted : ∃ other : Known, other.linked = true ∧
      Leaves executed (if step.interrupted then releaseLrScReservation else []) other := by
    cases step.interrupted with
    | true => exact ⟨_, rfl, leaves_releaseLrScReservation executed⟩
    | false => exact ⟨_, linked, Leaves.nil⟩
  obtain ⟨other, linked', interrupts⟩ := interrupted
  exact ((fetched.append executes).append interrupts) _
    (disciplined_performanceAndSyncUpdate linked' step.needSync)

end Functions

end SymexVP.BusLock
