import SymexVP.LockDiscipline

/-!
# Atomicity across initiators

Between the load of a load-reserved and the store of its store-conditional, and between
the load and the store of an atomic memory operation, no other initiator stores to the
memory. The invariant says for every hart that what it knows is true and that the calls it
has left are disciplined; a hart that is not running knows nothing but that its
reservation is good as long as it holds the lock. The lock keeps that true while
others run, and the hart that runs is the only one that can rely on more.
-/

namespace SymexVP.BusLock

variable {π : Type}

namespace System

variable (system : System) (hart : HartId) (change : Hart → Hart)

@[simp] theorem update_busLock : (system.update hart change).busLock = system.busLock := rfl

@[simp] theorem update_running : (system.update hart change).running = system.running := rfl

@[simp] theorem update_harts_self :
    (system.update hart change).harts hart = change (system.harts hart) :=
  Function.update_self ..

theorem update_harts_other {other : HartId} (different : other ≠ hart) :
    (system.update hart change).harts other = system.harts other :=
  Function.update_of_ne different ..

end System

/-! ## The lock -/

namespace Lock

theorem isLockedBy_iff {lock : Lock} {hart : HartId} :
    lock.isLockedBy hart = true ↔ lock.locked = true ∧ lock.owner = hart := by
  simp [isLockedBy]

/-- At every instant at most one hart owns the lock. -/
theorem owner_unique {lock : Lock} {hart other : HartId} (own : lock.isLockedBy hart = true)
    (owns : lock.isLockedBy other = true) : hart = other :=
  (isLockedBy_iff.mp own).2.symm.trans (isLockedBy_iff.mp owns).2

theorem unlock_not_isLockedBy (lock : Lock) (hart : HartId) :
    (lock.unlock hart).isLockedBy hart = false := by
  unfold unlock
  split
  · rfl
  · next free => rwa [Bool.not_eq_true] at free

/-- Only the owner's request has an effect. -/
theorem isLockedBy_of_unlock {lock : Lock} {hart other : HartId}
    (owns : (lock.unlock hart).isLockedBy other = true) : lock.isLockedBy other = true := by
  unfold unlock at owns
  split at owns
  · cases owns
  · exact owns

theorem unlock_right {lock : Lock} {hart : HartId}
    (right : lock.locked = true → lock.owner = hart) :
    (lock.unlock hart).locked = true → (lock.unlock hart).owner = hart := by
  unfold unlock
  split
  · nofun
  · exact right

end Lock

/-! ## What a hart knows is true -/

/-- The facts a hart knows hold. -/
structure Means (hart : HartId) (known : Known) (system : System) (log : List (Event π)) :
    Prop where
  right : known.right = true → system.busLock.locked = true → system.busLock.owner = hart
  linked : known.linked = true → system.busLock.isLockedBy hart = true →
    ∀ object, (system.harts hart).lrAddr = some object → Reserved hart object log
  loaded : known.loaded = true → AmoLoaded hart log
  fresh : ∀ object, known.fresh = some object → Reserved hart object log
  marked : ∀ object, known.marked = some object → (system.harts hart).lrAddr = some object

namespace Means

variable {hart : HartId} {known : Known} {system next : System} {log events : List (Event π)}

theorem weaken {less : Known} (means : Means hart known system log) (below : less.Below known) :
    Means hart less system log where
  right knows := means.right (below.right knows)
  linked knows := means.linked (below.linked knows)
  loaded knows := means.loaded (below.loaded knows)
  fresh object knows := means.fresh object (below.fresh object knows)
  marked object knows := means.marked object (below.marked object knows)

theorem yielded (means : Means hart known system log) : Means hart known.yielded system log :=
  means.weaken ⟨nofun, id, nofun, nofun, nofun⟩

/-- A call that changes neither the lock nor `lr_addr`. -/
theorem of_same (means : Means hart known system log) (lock : next.busLock = system.busLock)
    (lrAddr : (next.harts hart).lrAddr = (system.harts hart).lrAddr) :
    Means hart known next log := by
  obtain ⟨right, linked, loaded, fresh, marked⟩ := means
  constructor
  · rwa [lock]
  · rwa [lock, lrAddr]
  · exact loaded
  · exact fresh
  · rwa [lrAddr]

/-- Events that leave the reservation and the atomic load of the hart alone. -/
theorem append (means : Means hart known system log)
    (calm : ∀ event ∈ events, ¬IsReservation hart event ∧ ¬IsAmoLoad hart event ∧
      ¬IsForeignStore hart event) : Means hart known system (log ++ events) := by
  have reserves : ∀ object, Reserved hart object log → Reserved hart object (log ++ events) :=
    fun object reserved => reserved.append fun event member =>
      ⟨(calm event member).1, (calm event member).2.2⟩
  constructor
  · exact means.right
  · exact fun knows own object same => reserves object (means.linked knows own object same)
  · exact fun knows => (means.loaded knows).append fun event member => (calm event member).2
  · exact fun object knows => reserves object (means.fresh object knows)
  · exact means.marked

/-- What another process does leaves a hart with what it knows when it does not run. -/
theorem of_other (means : Means hart known.yielded system log)
    (same : next.harts hart = system.harts hart)
    (kept : next.busLock.isLockedBy hart = true → system.busLock.isLockedBy hart = true)
    (calm : system.busLock.isLockedBy hart = true →
      ∀ event ∈ events, ¬IsReservation hart event ∧ ¬IsForeignStore hart event) :
    Means hart known.yielded next (log ++ events) := by
  refine ⟨nofun, ?_, nofun, nofun, nofun⟩
  intro knows own object found
  rw [same] at found
  exact (means.linked knows (kept own) object found).append (calm (kept own))

/-- A hart that gives the lock up has nothing to say about its reservation. -/
theorem unlock (means : Means hart known system log) :
    Means hart { known with linked := true } (system.unlock hart) log where
  right knows := Lock.unlock_right (means.right knows)
  linked _ own := by
    have free := system.busLock.unlock_not_isLockedBy hart
    exact absurd (free.symm.trans own) Bool.noConfusion
  loaded := means.loaded
  fresh := means.fresh
  marked := means.marked

theorem unlock_same (means : Means hart known system log) :
    Means hart known (system.unlock hart) log :=
  means.unlock.weaken ⟨id, fun _ => rfl, id, fun _ => id, fun _ => id⟩

/-- A hart that sees the lock free or its own has the right of access. -/
theorem withRight (means : Means hart known system log)
    (access : system.busLock.locked = true → system.busLock.owner = hart) :
    Means hart known.withRight system log := by
  by_cases right : known.right = true
  · rwa [Known.withRight_of_right right]
  · rw [Known.withRight, if_neg right]
    refine ⟨fun _ => access, means.linked, ?_, ?_, ?_⟩
    · rintro ⟨⟩
    · rintro _ ⟨⟩
    · rintro _ ⟨⟩

end Means

/-! ## Calls -/

section Calls

variable {hart : HartId} {known : Known} {system next : System} {log events : List (Event π)}
  {call : Call} {rest : List Call}

/-- What is known of a hart: the facts hold, the calls left are disciplined, and it relies on
nothing more than its lock while it does not run. -/
def Sound (hart : HartId) (system : System) (log : List (Event π)) : Prop :=
  ∃ known, Means hart known system log ∧ Disciplined known (system.harts hart).todo ∧
    (system.running ≠ some hart → known = known.yielded)

/-- A call that changes the hart itself, but not its `lr_addr`. -/
theorem Sound.of_update {change : Hart → Hart} (means : Means hart known system log)
    (todo : (change (system.harts hart)).todo = rest)
    (lrAddr : (change (system.harts hart)).lrAddr = (system.harts hart).lrAddr)
    (disciplined : Disciplined known rest) (running : system.running = some hart) :
    Sound hart (system.update hart change) log := by
  refine ⟨known, means.of_same rfl ?_, ?_, fun other => absurd running other⟩
  · rw [System.update_harts_self, lrAddr]
  · rwa [System.update_harts_self, todo]

theorem Sound.goOn (means : Means hart known system log) (disciplined : Disciplined known rest)
    (running : system.running = some hart) : Sound hart (system.goOn hart rest) log :=
  .of_update means rfl rfl disciplined running

/-- A process that waits. -/
theorem Sound.yield (means : Means hart known system log)
    (disciplined : Disciplined known.yielded (system.harts hart).todo) :
    Sound hart system.yield log :=
  ⟨known.yielded, means.yielded.of_same rfl rfl, disciplined, fun _ => rfl⟩

theorem Sound.goOnYield (means : Means hart known system log)
    (disciplined : Disciplined known.yielded rest) :
    Sound hart (system.goOn hart rest).yield log := by
  refine .yield (means.of_same rfl ?_) ?_
  · rw [System.goOn, System.update_harts_self]
  · rwa [System.goOn, System.update_harts_self]

/-- A hart's own accesses do not disturb what it began. -/
theorem own_calm {event : Event π} {purpose : Purpose}
    (own : event = .stored (.hart hart) purpose ∨ event = .loaded hart purpose ∧
      (purpose = .plain ∨ purpose = .pageTable ∨ ∃ object, purpose = .conditional object)) :
    ¬IsReservation hart event ∧ ¬IsAmoLoad hart event ∧ ¬IsForeignStore hart event := by
  obtain rfl | ⟨rfl, rfl | rfl | ⟨object, rfl⟩⟩ := own <;>
    simp [IsReservation, IsAmoLoad, IsForeignStore]

theorem Means.load (means : Means hart known system log) {purpose : Purpose}
    (allows : known.Allows (.load purpose)) :
    Means hart (known.after (.load purpose)) system (log ++ [.loaded hart purpose]) := by
  have calm : ∀ purpose, (purpose = .plain ∨ purpose = .pageTable ∨
      ∃ object, purpose = .conditional object) →
      Means hart known system (log ++ [.loaded hart purpose]) := by
    refine fun purpose plain => means.append fun event member => ?_
    cases List.mem_singleton.mp member
    exact own_calm (.inr ⟨rfl, plain⟩)
  cases purpose with
  | reserved object =>
      have fresh : Reserved hart object (log ++ [.loaded hart (.reserved object)]) :=
        EventLog.Since.start _ _ _ _
      refine ⟨means.right, fun _ _ other found => ?_, fun knows => ?_, ?_, means.marked⟩
      · cases (means.marked object allows).symm.trans found
        exact fresh
      · refine (means.loaded knows).append fun event member => ?_
        cases List.mem_singleton.mp member
        simp [IsAmoLoad, IsForeignStore]
      · rintro _ ⟨⟩
        exact fresh
  | amo =>
      have keeps : ∀ object, Reserved hart object log →
          Reserved hart object (log ++ [.loaded hart .amo]) := by
        refine fun object reserved => reserved.append fun event member => ?_
        cases List.mem_singleton.mp member
        simp [IsReservation, IsForeignStore]
      exact ⟨means.right, fun knows own object found => keeps object (means.linked knows own object found),
        fun _ => EventLog.Since.start _ _ _ _,
        fun object knows => keeps object (means.fresh object knows), means.marked⟩
  | plain => exact calm _ (.inl rfl)
  | pageTable => exact calm _ (.inr (.inl rfl))
  | conditional object => exact calm _ (.inr (.inr ⟨object, rfl⟩))

/-- A call leaves the hart with what the discipline says. -/
theorem perform_sound (means : Means hart known system log) (allows : known.Allows call)
    (disciplined : Disciplined (known.after call) rest)
    (todo : (system.harts hart).todo = call :: rest) (running : system.running = some hart)
    (performed : system.perform hart rest call = some (next, events)) :
    Sound hart next (log ++ events) := by
  cases call with
  | waitForAccessRights =>
      rw [System.perform] at performed
      split at performed
      · next foreign =>
          cases performed
          rw [List.append_nil]
          have blind : known.right ≠ true := by
            intro right
            simp only [Bool.and_eq_true, Bool.not_eq_true'] at foreign
            have own := Lock.isLockedBy_iff.mpr ⟨foreign.1, means.right right foreign.1⟩
            rw [own] at foreign
            cases foreign.2
          have waits : Disciplined known.yielded (.waitUntilUnlocked :: rest) := by
            rw [Known.after, Known.withRight, if_neg blind] at disciplined
            exact ⟨trivial, disciplined⟩
          exact .goOn means.yielded waits running
      · next access =>
          cases performed
          rw [List.append_nil]
          have granted := means.withRight fun locked => by
            simp only [locked, Bool.true_and, Bool.not_eq_true', Bool.not_eq_false] at access
            exact (Lock.isLockedBy_iff.mp access).2
          exact .goOn granted disciplined running
  | waitUntilUnlocked =>
      rw [System.perform] at performed
      split at performed
      · cases performed
        rw [List.append_nil]
        exact .yield means (todo ▸ ⟨trivial, disciplined⟩)
      · next free =>
          cases performed
          rw [List.append_nil]
          have granted : Means hart known.yielded.withRight system log :=
            means.yielded.withRight fun locked => absurd locked free
          exact .goOn granted disciplined running
  | lock =>
      rw [System.perform] at performed
      split at performed
      · next fails =>
          simp only [Bool.and_eq_true, bne_iff_ne] at fails
          exact absurd (means.right allows fails.1) fails.2
      · cases performed
        rw [List.append_nil]
        refine ⟨{ known with linked := false },
          ⟨fun _ _ => rfl, ?_, means.loaded, means.fresh, ?_⟩, ?_, fun other => absurd running other⟩
        · rintro ⟨⟩
        · simpa [System.goOn] using means.marked
        · rwa [System.goOn, System.update_harts_self]
  | unlock =>
      cases performed
      rw [List.append_nil]
      exact .goOn means.unlock disciplined running
  | assertLocked =>
      rw [System.perform] at performed
      split at performed
      · cases performed
        rw [List.append_nil]
        exact .goOn means disciplined running
      · cases performed
  | setLrAddr object =>
      cases performed
      rw [List.append_nil]
      refine ⟨{ known with linked := false, marked := some object },
        ⟨means.right, ?_, means.loaded, means.fresh, ?_⟩, ?_, fun other => absurd running other⟩
      · rintro ⟨⟩
      · rintro _ ⟨⟩
        rw [System.update_harts_self]
      · rwa [System.update_harts_self]
  | load purpose =>
      cases performed
      exact .goOn (means.load allows) disciplined running
  | store purpose =>
      cases performed
      have kept : Means hart known system (log ++ [.stored (.hart hart) purpose]) := by
        refine means.append fun event member => ?_
        cases List.mem_singleton.mp member
        exact own_calm (.inl rfl)
      exact .goOn kept disciplined running
  | atomicStoreConditionalWord object walk marks =>
      rw [System.perform] at performed
      split at performed
      · next own =>
          split at performed
          · next same =>
              cases performed
              rw [List.append_nil]
              let reserved : Known := ⟨true, true, false, some object, none⟩
              have means' : Means hart reserved system log := by
                refine ⟨fun _ _ => (Lock.isLockedBy_iff.mp own).2, fun _ => means.linked allows,
                  ?_, ?_, ?_⟩
                · rintro ⟨⟩
                · rintro _ ⟨⟩
                  exact means.linked allows own object same
                · rintro _ ⟨⟩
              have allowed : reserved.withRight.Allows (.store (.conditional object)) := ⟨rfl, rfl⟩
              have stores := leaves_symbolicStoreData allowed walk marks
              refine .goOn means' (stores rest (disciplined.mono ?_)) running
              refine ⟨?_, fun _ => rfl, ?_, ?_, ?_⟩
              · rintro ⟨⟩
              · rintro ⟨⟩
              · rintro _ ⟨⟩
              · rintro _ ⟨⟩
          · cases performed
            rw [List.append_nil]
            refine .goOn (means.yielded.unlock_same) disciplined running
      · cases performed
        rw [List.append_nil]
        exact .goOn means.yielded disciplined running
  | startCounter | clearCounter =>
      cases performed
      rw [List.append_nil]
      exact .of_update means rfl rfl disciplined running
  | countDown =>
      have counted : Means hart known (system.update hart fun state =>
          { state with todo := rest, lrScCounter := state.lrScCounter - 1 }) log :=
        means.of_same rfl (by rw [System.update_harts_self])
      rw [System.perform] at performed
      split at performed
      · cases performed
        rw [List.append_nil]
        refine ⟨known, counted.unlock_same, ?_, fun other => absurd running other⟩
        rwa [System.unlock, System.update_harts_self]
      · cases performed
        rw [List.append_nil]
        exact .of_update means rfl rfl disciplined running
  | sync needed =>
      rw [System.perform] at performed
      split at performed
      · cases performed
        rw [List.append_nil]
        exact .goOnYield means disciplined
      · cases performed
        rw [List.append_nil]
        exact .goOn means.yielded disciplined running
  | waitWfi =>
      cases performed
      rw [List.append_nil]
      exact .goOnYield means disciplined

theorem right_of_allows_store {purpose : Purpose} (allows : known.Allows (.store purpose)) :
    known.right = true := by
  cases purpose with
  | amo | conditional => exact allows.1
  | plain | pageTable | reserved => exact allows

/-- What a step of one process leaves to another hart: its state, its lock, and as long as it
holds the lock also its reservation. -/
structure Spares (other : HartId) (system next : System) (events : List (Event π)) : Prop where
  same : next.harts other = system.harts other
  kept : next.busLock.isLockedBy other = true → system.busLock.isLockedBy other = true
  calm : system.busLock.isLockedBy other = true →
    ∀ event ∈ events, ¬IsReservation other event ∧ ¬IsForeignStore other event

theorem Spares.of_update {other : HartId} (different : other ≠ hart) (change : Hart → Hart) :
    Spares other system (system.update hart change) ([] : List (Event π)) :=
  ⟨System.update_harts_other _ _ _ different, id, fun _ => nofun⟩

theorem Spares.unlock {other : HartId} (spares : Spares other system next events) :
    Spares other system (next.unlock hart) events :=
  ⟨spares.same, fun own => spares.kept (Lock.isLockedBy_of_unlock own), spares.calm⟩

/-- A call of one hart spares the others. -/
theorem perform_spares {other : HartId} (different : other ≠ hart)
    (means : Means hart known system log) (allows : known.Allows call)
    (performed : system.perform hart rest call = some (next, events)) :
    Spares other system next events := by
  have updated : ∀ change, Spares other system (system.update hart change) ([] : List (Event π)) :=
    fun change => .of_update different change
  have going : ∀ todo, Spares other system (system.goOn hart todo) ([] : List (Event π)) :=
    fun todo => updated _
  have shown : ∀ event : Event π, (system.busLock.isLockedBy other = true →
      ¬IsReservation other event ∧ ¬IsForeignStore other event) →
      Spares other system (system.goOn hart rest) [event] := by
    refine fun event calm => ⟨(going rest).same, id, fun own found member => ?_⟩
    cases List.mem_singleton.mp member
    exact calm own
  cases call with
  | waitForAccessRights | waitUntilUnlocked | sync =>
      rw [System.perform] at performed
      split at performed <;> cases performed <;>
        exact ⟨by simp [System.goOn, System.yield, System.update_harts_other, different], id,
          fun _ => nofun⟩
  | lock =>
      rw [System.perform] at performed
      split at performed
      · cases performed
        exact shown _ fun _ => ⟨id, id⟩
      · cases performed
        refine ⟨(going rest).same, fun own => ?_, fun _ => nofun⟩
        exact absurd (Lock.isLockedBy_iff.mp own).2.symm different
  | unlock =>
      cases performed
      exact (going rest).unlock
  | assertLocked =>
      rw [System.perform] at performed
      split at performed
      · cases performed
        exact going rest
      · cases performed
  | setLrAddr | startCounter | clearCounter =>
      cases performed
      exact updated _
  | load purpose =>
      cases performed
      refine shown _ fun _ => ⟨?_, id⟩
      cases purpose with
      | reserved object => exact different.symm
      | _ => exact id
  | store purpose =>
      cases performed
      refine shown _ fun own => ?_
      obtain ⟨locked, owner⟩ := Lock.isLockedBy_iff.mp own
      have mine := means.right (right_of_allows_store allows) locked
      exact absurd (owner.symm.trans mine) different
  | atomicStoreConditionalWord object walk marks =>
      rw [System.perform] at performed
      split at performed
      · split at performed
        · cases performed
          exact going _
        · cases performed
          exact (going rest).unlock
      · cases performed
        exact going rest
  | countDown =>
      rw [System.perform] at performed
      split at performed
      · cases performed
        exact (updated _).unlock
      · cases performed
        exact updated _
  | waitWfi =>
      cases performed
      exact ⟨(going rest).same, id, fun _ => nofun⟩

/-- The store of a store-conditional or of an atomic memory operation comes behind its undisturbed
load, and the assertion in `lock` does not fail. -/
def ProperEvent (before : List (Event π)) : Event π → Prop
  | .stored (.hart hart) (.conditional object) => Reserved hart object before
  | .stored (.hart hart) .amo => AmoLoaded hart before
  | .assertionFailed _ => False
  | _ => True

theorem perform_proper (means : Means hart known system log) (allows : known.Allows call)
    (performed : system.perform hart rest call = some (next, events))
    (proper : EventLog.Proper ProperEvent log) : EventLog.Proper ProperEvent (log ++ events) := by
  have silent : events = [] → EventLog.Proper ProperEvent (log ++ events) := by
    rintro rfl
    rwa [List.append_nil]
  cases call with
  | load purpose =>
      cases performed
      exact proper.concat trivial
  | store purpose =>
      cases performed
      refine proper.concat ?_
      cases purpose with
      | amo => exact means.loaded allows.2
      | conditional object => exact means.fresh object allows.2
      | _ => trivial
  | lock =>
      rw [System.perform] at performed
      split at performed
      · next fails =>
          simp only [Bool.and_eq_true, bne_iff_ne] at fails
          exact absurd (means.right allows fails.1) fails.2
      · cases performed
        exact silent rfl
  | unlock | setLrAddr | startCounter | clearCounter | waitWfi =>
      cases performed
      exact silent rfl
  | waitForAccessRights | waitUntilUnlocked | assertLocked | countDown | sync =>
      rw [System.perform] at performed
      split at performed <;> cases performed <;> exact silent rfl
  | atomicStoreConditionalWord =>
      rw [System.perform] at performed
      split_ifs at performed <;> cases performed <;> exact silent rfl

end Calls

/-! ## Runs -/

/-- The invariant of the system and its log. -/
structure Invariant (log : List (Event π)) (system : System) : Prop where
  sound : ∀ hart, Sound hart system log
  proper : EventLog.Proper ProperEvent log

theorem invariant_initial : Invariant ([] : List (Event π)) System.initial := by
  refine ⟨fun hart => ?_, EventLog.Proper.nil⟩
  exact ⟨Known.idle, ⟨nofun, fun _ => nofun, nofun, nofun, nofun⟩, rfl, fun _ => rfl⟩

section Steps

variable {log events : List (Event π)} {system next : System} {hart : HartId}

/-- What a hart knows that does not run survives what spares it. -/
theorem Sound.of_spares (sound : Sound hart system log) (resting : system.running ≠ some hart)
    (spares : Spares hart system next events) : Sound hart next (log ++ events) := by
  obtain ⟨known, means, disciplined, yields⟩ := sound
  have same := yields resting
  rw [same] at means
  refine ⟨known.yielded, means.of_other spares.same spares.kept spares.calm, ?_, fun _ => rfl⟩
  rw [spares.same, ← same]
  exact disciplined

/-- A running hart gets new calls. -/
theorem Invariant.goOn {todo : List Call} {known : Known} (invariant : Invariant log system)
    (running : system.running = some hart) (means : Means hart known system log)
    (disciplined : Disciplined known todo) : Invariant log (system.goOn hart todo) := by
  refine ⟨fun other => ?_, invariant.proper⟩
  by_cases same : other = hart
  · rw [same]
    exact .goOn means disciplined running
  · have resting : system.running ≠ some other := by
      rw [running]
      exact fun found => same (Option.some.inj found).symm
    have spared := (invariant.sound other).of_spares resting
      (Spares.of_update (π := π) same fun state => { state with todo := todo })
    rwa [List.append_nil] at spared

/-- Any process may wait between its steps. -/
theorem Invariant.yield (invariant : Invariant log system)
    (running : system.running = some hart) (free : (system.harts hart).todo = []) :
    Invariant log system.yield := by
  refine ⟨fun other => ?_, invariant.proper⟩
  obtain ⟨known, means, disciplined, yields⟩ := invariant.sound other
  by_cases same : other = hart
  · rw [same] at means disciplined
    rw [free] at disciplined
    have linked : Disciplined known.yielded (system.harts hart).todo := by
      rw [free]
      exact disciplined
    rw [same]
    exact .yield means linked
  · have resting : system.running ≠ some other := by
      rw [running]
      exact fun found => same (Option.some.inj found).symm
    exact ⟨known, means.of_same rfl rfl, disciplined, fun _ => yields resting⟩

/-- A call of the running hart. -/
theorem Invariant.call {call : Call} {rest : List Call} (invariant : Invariant log system)
    (running : system.running = some hart) (todo : (system.harts hart).todo = call :: rest)
    (performed : system.perform hart rest call = some (next, events)) :
    Invariant (log ++ events) next := by
  obtain ⟨known, means, disciplined, -⟩ := invariant.sound hart
  rw [todo] at disciplined
  obtain ⟨allows, later⟩ := disciplined
  refine ⟨fun other => ?_, perform_proper means allows performed invariant.proper⟩
  by_cases same : other = hart
  · rw [same]
    exact perform_sound means allows later todo running performed
  · have resting : system.running ≠ some other := by
      rw [running]
      exact fun found => same (Option.some.inj found).symm
    exact (invariant.sound other).of_spares resting (perform_spares same means allows performed)

/-- A peripheral writes while the lock is free. -/
theorem Invariant.transport (connector : π) (invariant : Invariant log system)
    (idle : system.running = none) (free : system.busLock.locked = false) :
    Invariant (log ++ [.stored (.peripheral connector) .plain]) system := by
  refine ⟨fun other => ?_, invariant.proper.concat trivial⟩
  have resting : system.running ≠ some other := by
    rw [idle]
    exact nofun
  refine (invariant.sound other).of_spares resting ⟨rfl, id, fun own => ?_⟩
  have locked := (Lock.isLockedBy_iff.mp own).1
  rw [free] at locked
  cases locked

/-- Every action keeps the invariant. -/
theorem invariant_step {action : Action π} (invariant : Invariant log system)
    (taken : system.step action = some (next, events)) : Invariant (log ++ events) next := by
  cases action with
  | resume hart =>
      rw [System.step] at taken
      split at taken
      · next idle =>
          cases taken
          rw [List.append_nil]
          refine ⟨fun other => ?_, invariant.proper⟩
          obtain ⟨known, means, disciplined, yields⟩ := invariant.sound other
          have resting : system.running ≠ some other := by
            rw [idle]
            exact nofun
          exact ⟨known, means.of_same rfl rfl, disciplined, fun _ => yields resting⟩
      · cases taken
  | start hart step =>
      rw [System.step] at taken
      split at taken
      · next ready =>
          cases taken
          rw [List.append_nil]
          obtain ⟨known, means, disciplined, -⟩ := invariant.sound hart
          rw [ready.2] at disciplined
          have linked : known.linked = true := disciplined
          have idle : Means hart Known.idle system log :=
            means.weaken ⟨nofun, fun _ => linked, nofun, nofun, nofun⟩
          exact invariant.goOn ready.1 idle (disciplined_runStep step)
      · cases taken
  | call hart =>
      rw [System.step] at taken
      split at taken
      · next running =>
          cases todo : (system.harts hart).todo with
          | nil =>
              rw [todo] at taken
              cases taken
          | cons call rest =>
              rw [todo] at taken
              exact invariant.call running todo taken
      · cases taken
  | trap hart needSync =>
      rw [System.step] at taken
      split at taken
      · next ready =>
          cases taken
          rw [List.append_nil]
          obtain ⟨known, means, -, -⟩ := invariant.sound hart
          exact invariant.goOn ready.1 means (disciplined_handleTrap known needSync)
      · cases taken
  | halt hart =>
      rw [System.step] at taken
      split at taken
      · next ready =>
          cases taken
          rw [List.append_nil]
          exact invariant.yield ready.1 ready.2
      · cases taken
  | transport connector =>
      rw [System.step] at taken
      split at taken
      · next ready =>
          cases taken
          exact invariant.transport connector ready.1 ready.2
      · cases taken

end Steps

/-- Between the load of a load-reserved and the store of the store-conditional that follows it,
no other initiator stores; the store-conditional has taken its address from the same object. -/
def LrScAtomic (log : List (Event π)) : Prop :=
  ∀ hart object stored before between after,
    log = (before ++ .loaded hart (.reserved object) :: between) ++
      .stored (.hart hart) (.conditional stored) :: after →
    (∀ event ∈ between, ¬IsReservation hart event) →
      stored = object ∧ ∀ event ∈ between, ¬IsForeignStore hart event

/-- The same between the load and the store of one atomic memory operation. -/
def AmoAtomic (log : List (Event π)) : Prop :=
  ∀ hart before between after,
    log = (before ++ .loaded hart .amo :: between) ++ .stored (.hart hart) .amo :: after →
    (∀ event ∈ between, ¬IsAmoLoad hart event) →
      ∀ event ∈ between, ¬IsForeignStore hart event

section Pairs

variable {log : List (Event π)}

theorem lrScAtomic_of_proper (proper : EventLog.Proper ProperEvent log) : LrScAtomic log := by
  intro hart object stored before between after split last
  have reserved : Reserved hart stored (before ++ .loaded hart (.reserved object) :: between) :=
    proper _ _ _ split
  obtain ⟨same, undisturbed⟩ := reserved.split rfl last rfl
  cases same
  exact ⟨rfl, undisturbed⟩

theorem amoAtomic_of_proper (proper : EventLog.Proper ProperEvent log) : AmoAtomic log := by
  intro hart before between after split last
  have loaded : AmoLoaded hart (before ++ .loaded hart .amo :: between) := proper _ _ _ split
  exact (loaded.split rfl last rfl).2

theorem assertion_holds_of_proper (proper : EventLog.Proper ProperEvent log) (hart : HartId) :
    .assertionFailed hart ∉ log := by
  intro member
  obtain ⟨before, after, split⟩ := List.append_of_mem member
  exact proper _ _ _ split

end Pairs

/-- In every run of any number of harts and peripherals, load-reserved and store-conditional are
atomic and so are atomic memory operations, at most one hart owns the lock, and the assertion
in `lock` holds. -/
theorem atomic_across_initiators {actions : List (Action π)} {last : System}
    {log : List (Event π)}
    (ran : ActionRun.perform System.step System.initial actions = some (last, log)) :
    LrScAtomic log ∧ AmoAtomic log ∧
      (∀ hart other, last.busLock.isLockedBy hart = true →
        last.busLock.isLockedBy other = true → hart = other) ∧
      ∀ hart, .assertionFailed hart ∉ log := by
  have invariant : Invariant log last :=
    ActionRun.perform_invariant invariant_step invariant_initial ran
  exact ⟨lrScAtomic_of_proper invariant.proper, amoAtomic_of_proper invariant.proper,
    fun _ _ own owns => Lock.owner_unique own owns, assertion_holds_of_proper invariant.proper⟩

/-- One hart reserves and stores and another exchanges a word, between two writes of a
peripheral. -/
def contendedRun : List (Action Unit) :=
  let direct : Walk := ⟨0, false⟩
  [.transport (), .resume 0, .start 0 ⟨direct, .lrW 5 direct, false, false⟩] ++
    List.replicate 10 (.call 0) ++ [.start 0 ⟨direct, .scW 5 direct [], false, true⟩] ++
    List.replicate 9 (.call 0) ++
    [.resume 1, .start 1 ⟨direct, .executeAmo direct direct [], false, true⟩] ++
    List.replicate 12 (.call 1) ++ [.transport ()]

theorem atomic_contendedRun : ∃ last : System, ∃ log : List (Event Unit),
    ActionRun.perform System.step System.initial contendedRun = some (last, log) ∧
      (.stored (.hart 0) (.conditional 5) ∈ log ∧ .stored (.hart 1) .amo ∈ log) ∧
      LrScAtomic log ∧ AmoAtomic log := by
  have shown : (ActionRun.perform System.step System.initial contendedRun).map Prod.snd =
      some [.stored (.peripheral ()) .plain, .loaded 0 .plain, .loaded 0 (.reserved 5),
        .loaded 0 .plain, .stored (.hart 0) (.conditional 5), .loaded 1 .plain, .loaded 1 .amo,
        .stored (.hart 1) .amo, .stored (.peripheral ()) .plain] := by
    decide +kernel
  obtain ⟨⟨last, log⟩, ran, same⟩ := Option.map_eq_some_iff.mp shown
  obtain ⟨lrSc, amo, -, -⟩ := atomic_across_initiators ran
  refine ⟨last, log, ran, ?_, lrSc, amo⟩
  cases same
  decide

end SymexVP.BusLock
