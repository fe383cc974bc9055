import SymexVP.FirstMatch
import SymexVP.GdbSessions

/-!
# The leftmost action of vCont

A packet of `vCont` holds a list of actions, each for the harts that its thread id
names. Of the actions that name a hart the leftmost one is the hart's.

`vCont` goes through the actions from the left and leaves out the harts in `matched`. A
hart gets there only through an action for one hart: what an action for all harts or for
any of them has run is run again by a later one.
-/

namespace SymexVP.Gdb.Handlers

open Exec FirstMatch

variable {machine : Machine}

/-! ## The calls of `run_threads` -/

/-- The arguments of one call of `run_threads`. -/
structure Call (machine : Machine) where
  hartsrun : List (Fin machine.count)
  single : Bool

/-- Why `vCont` leaves its loop. -/
inductive Ending
  | finished
  | outOfRange
  | unimplemented
  deriving DecidableEq

/-- The calls the loop of `vCont` makes; they depend on the actions alone. -/
def calls (machine : Machine) : List Action → List (Fin machine.count) → List (Call machine)
  | [], _ => []
  | action :: rest, matched =>
      if action.action ≠ byte 's' ∧ action.action ≠ byte 'c' then []
      else
        match getThreads machine action.tid with
        | .error _ => []
        | .ok threads =>
            ⟨threads.filter fun hart => hart ∉ matched, action.action == byte 's'⟩ ::
              calls machine rest (if 0 < action.tid then threads ++ matched else matched)

theorem calls_cons (action : Action) (rest : List Action) (matched : List (Fin machine.count)) :
    calls machine (action :: rest) matched =
      if action.action ≠ byte 's' ∧ action.action ≠ byte 'c' then []
      else
        match getThreads machine action.tid with
        | .error _ => []
        | .ok threads =>
            ⟨threads.filter fun hart => hart ∉ matched, action.action == byte 's'⟩ ::
              calls machine rest (if 0 < action.tid then threads ++ matched else matched) := rfl

def ending (machine : Machine) : List Action → Ending
  | [] => .finished
  | action :: rest =>
      if action.action ≠ byte 's' ∧ action.action ≠ byte 'c' then .unimplemented
      else
        match getThreads machine action.tid with
        | .error _ => .outOfRange
        | .ok _ => ending machine rest

/-- The calls one after another, and what the loop is left with. -/
def performCalls : List (Call machine) → Ending → Stop → ServerM machine Unit
  | [], .finished, stop => sendStop stop
  | [], .outOfRange, _ => sendPacket (str "E01")
  | [], .unimplemented, _ => throw .invalidArgument
  | call :: rest, ending, stop => do
      runThreads call.hartsrun call.single
      let stop ← reportStops call.hartsrun stop
      performCalls rest ending stop

theorem vContFrom_eq_performCalls (actions : List Action) (matched : List (Fin machine.count))
    (stop : Stop) :
    vContFrom actions matched stop =
      performCalls (calls machine actions matched) (ending machine actions) stop := by
  induction actions generalizing matched stop with
  | nil => rfl
  | cons action rest inductionHypothesis =>
      rw [vContFrom, calls_cons, ending]
      by_cases unknown : action.action ≠ byte 's' ∧ action.action ≠ byte 'c'
      · rw [if_pos unknown, if_pos unknown, if_pos unknown]
        rfl
      · rw [if_neg unknown, if_neg unknown, if_neg unknown]
        cases found : getThreads machine action.tid with
        | error fault => rfl
        | ok threads =>
            have one := getThreads_length found
            dsimp only
            rw [performCalls]
            congr 1
            funext _
            congr 1
            funext stop
            by_cases named : 0 < action.tid
            · rw [if_pos named, if_pos named, require_of (one named), ← inductionHypothesis]
              rfl
            · rw [if_neg named, if_neg named, inductionHypothesis]

/-! ## Thread ids -/

/-- The thread id of an action names a hart: -1 names all of them and 0 the first. -/
def Action.Matches (action : Action) (hart : Fin machine.count) : Prop :=
  action.tid = GDB_THREAD_ALL ∨ action.tid = GDB_THREAD_ANY ∧ hart.val = 0 ∨
    action.tid = hart.val + 1

/-- It names one hart by its number. -/
def Action.Named (action : Action) : Prop := 0 < action.tid

/-- `vCont` knows the action and the machine has the hart. -/
def Accepted (machine : Machine) (action : Action) : Prop :=
  (action.action = byte 's' ∨ action.action = byte 'c') ∧
    -1 ≤ action.tid ∧ action.tid ≤ machine.count

instance (machine : Machine) (action : Action) : Decidable (Accepted machine action) :=
  inferInstanceAs (Decidable ((action.action = byte 's' ∨ action.action = byte 'c') ∧
    -1 ≤ action.tid ∧ action.tid ≤ machine.count))

/-- The actions in front of the first that is refused. -/
def accepted (machine : Machine) (actions : List Action) : List Action :=
  actions.takeWhile fun action => decide (Accepted machine action)

theorem accepted_cons_of_accepted {action : Action} (known : Accepted machine action)
    (rest : List Action) : accepted machine (action :: rest) = action :: accepted machine rest := by
  rw [accepted, List.takeWhile_cons, if_pos (decide_eq_true known), accepted]

theorem accepted_cons_of_refused {action : Action} (refused : ¬Accepted machine action)
    (rest : List Action) : accepted machine (action :: rest) = [] := by
  rw [accepted, List.takeWhile_cons, if_neg (by simpa using refused)]

theorem getThreads_isOk_iff {tid : Int} :
    (∃ threads, getThreads machine tid = .ok threads) ↔ -1 ≤ tid ∧ tid ≤ machine.count := by
  have positive := machine.positive
  unfold getThreads GDB_THREAD_ANY GDB_THREAD_ALL
  dsimp only
  split_ifs <;> simp only [exists_const, false_iff, Except.ok.injEq, exists_eq',
    true_iff] <;> omega

theorem mem_getThreads {action : Action} {threads : List (Fin machine.count)}
    (found : getThreads machine action.tid = .ok threads) (hart : Fin machine.count) :
    hart ∈ threads ↔ action.Matches hart := by
  unfold getThreads GDB_THREAD_ANY GDB_THREAD_ALL at found
  unfold Action.Matches GDB_THREAD_ANY GDB_THREAD_ALL
  dsimp only at found
  split_ifs at found with any impossible inside all small inside
  · exact impossible.elim
  · cases found
    rw [List.mem_singleton, Fin.ext_iff]
    dsimp only
    omega
  · cases found
    exact iff_of_true (List.mem_finRange hart) (.inl ‹_›)
  · cases found
    rw [List.mem_singleton, Fin.ext_iff]
    dsimp only
    omega

theorem getThreads_nodup {tid : Int} {threads : List (Fin machine.count)}
    (found : getThreads machine tid = .ok threads) : threads.Nodup := by
  unfold getThreads at found
  generalize (if tid = GDB_THREAD_ANY then 1 else tid) = tid at found
  dsimp only at found
  split_ifs at found <;> cases found
  · exact List.nodup_finRange _
  · exact List.nodup_singleton _

theorem accepted_iff {action : Action} : Accepted machine action ↔
    ¬(action.action ≠ byte 's' ∧ action.action ≠ byte 'c') ∧
      ∃ threads, getThreads machine action.tid = .ok threads := by
  rw [getThreads_isOk_iff, Accepted]
  tauto

theorem named_matches_iff {action : Action} {hart : Fin machine.count} :
    action.Named ∧ action.Matches hart ↔ action.tid = hart.val + 1 := by
  unfold Action.Named Action.Matches GDB_THREAD_ANY GDB_THREAD_ALL
  omega

/-! ## Who is run by whom -/

/-- A call for an action that is accepted, and the calls for the actions behind it. -/
theorem calls_cons_accepted {action : Action} {threads : List (Fin machine.count)}
    (known : ¬(action.action ≠ byte 's' ∧ action.action ≠ byte 'c'))
    (found : getThreads machine action.tid = .ok threads) (rest : List Action)
    (matched : List (Fin machine.count)) :
    calls machine (action :: rest) matched =
      ⟨threads.filter fun hart => hart ∉ matched, action.action == byte 's'⟩ ::
        calls machine rest (if 0 < action.tid then threads ++ matched else matched) := by
  rw [calls_cons, if_neg known, found]

theorem calls_cons_refused {action : Action} (refused : ¬Accepted machine action)
    (rest : List Action) (matched : List (Fin machine.count)) :
    calls machine (action :: rest) matched = [] := by
  rw [accepted_iff] at refused
  rw [calls_cons]
  by_cases unknown : action.action ≠ byte 's' ∧ action.action ≠ byte 'c'
  · rw [if_pos unknown]
  · rw [if_neg unknown]
    cases found : getThreads machine action.tid with
    | error fault => rfl
    | ok threads => exact absurd ⟨unknown, threads, found⟩ refused

theorem length_calls (actions : List Action) (matched : List (Fin machine.count)) :
    (calls machine actions matched).length = (accepted machine actions).length := by
  induction actions generalizing matched with
  | nil => rfl
  | cons action rest inductionHypothesis =>
      by_cases known : Accepted machine action
      · obtain ⟨stands, threads, found⟩ := accepted_iff.mp known
        rw [accepted_cons_of_accepted known, calls_cons_accepted stands found,
          List.length_cons, List.length_cons, inductionHypothesis]
      · rw [accepted_cons_of_refused known, calls_cons_refused known]
        rfl

/-- What a call passes: its harts once each, those of its action but for `matched` and for the
harts named before; and it is a single step if its action is one. -/
theorem calls_spec (actions : List Action) (matched : List (Fin machine.count)) {index : Nat}
    {call : Call machine} (made : (calls machine actions matched)[index]? = some call) :
    call.hartsrun.Nodup ∧
      (∃ action, actions[index]? = some action ∧ call.single = (action.action == byte 's')) ∧
      ∀ hart, hart ∈ call.hartsrun ↔ hart ∉ matched ∧
        Served Action.Matches Action.Named (accepted machine actions) index hart := by
  induction actions generalizing matched index with
  | nil => cases made
  | cons action rest inductionHypothesis =>
      by_cases known : Accepted machine action
      · obtain ⟨stands, threads, found⟩ := accepted_iff.mp known
        rw [calls_cons_accepted stands found] at made
        rw [accepted_cons_of_accepted known]
        cases index with
        | zero =>
            cases made
            refine ⟨(getThreads_nodup found).filter _, ⟨action, rfl, rfl⟩, ?_⟩
            intro hart
            rw [served_zero, List.mem_filter, mem_getThreads found, decide_eq_true_iff]
            exact and_comm
        | succ index =>
            obtain ⟨once, single, harts⟩ := inductionHypothesis _ made
            refine ⟨once, single, ?_⟩
            intro hart
            rw [harts hart, served_succ, ← and_assoc]
            apply and_congr_left
            intro _
            by_cases named : 0 < action.tid
            · rw [if_pos named, List.mem_append, mem_getThreads found, Action.Named]
              tauto
            · rw [if_neg named, Action.Named]
              tauto
      · rw [calls_cons_refused known] at made
        cases made

/-! ## The leftmost action -/

/-- Every hart is run at most once: by the leftmost action that matches it, in a single step if
that action asks for one. It is run if the loop gets as far as that action. -/
structure AppliesLeftmost (actions : List Action) (made : List (Call machine)) : Prop where
  once : (made.flatMap Call.hartsrun).Nodup
  leftmost : ∀ (index : Nat) (call : Call machine), made[index]? = some call →
    ∀ hart, hart ∈ call.hartsrun ↔ Leftmost Action.Matches actions index hart
  single : ∀ (index : Nat) (call : Call machine), made[index]? = some call →
    ∃ action, actions[index]? = some action ∧ (call.single = true ↔ action.action = byte 's')

/-- The calls as far as the loop gets, when nothing is matched yet. -/
theorem mem_hartsrun {actions : List Action} {index : Nat} {call : Call machine}
    (made : (calls machine actions [])[index]? = some call) (hart : Fin machine.count) :
    hart ∈ call.hartsrun ↔
      Served Action.Matches Action.Named (accepted machine actions) index hart := by
  have harts := (calls_spec actions [] made).2.2 hart
  rwa [and_iff_right List.not_mem_nil] at harts

theorem leftmost_accepted_iff {actions : List Action} {index : Nat}
    (inside : index < (calls machine actions []).length) (hart : Fin machine.count) :
    Leftmost Action.Matches actions index hart ↔
      Leftmost Action.Matches (accepted machine actions) index hart :=
  Leftmost.of_isPrefix (List.takeWhile_prefix _) (length_calls actions [] ▸ inside)

theorem once_of_leftmost {actions : List Action}
    (leftmost : ∀ (index : Nat) (call : Call machine),
      (calls machine actions [])[index]? = some call →
      ∀ hart, hart ∈ call.hartsrun ↔ Leftmost Action.Matches actions index hart) :
    ((calls machine actions []).flatMap Call.hartsrun).Nodup := by
  rw [List.nodup_flatMap]
  constructor
  · intro call made
    obtain ⟨index, place⟩ := List.mem_iff_getElem?.mp made
    exact (calls_spec actions [] place).1
  · rw [List.pairwise_iff_getElem]
    intro first second inside inside' before hart member member'
    have earlier := (leftmost first _ (List.getElem?_eq_getElem inside) hart).mp member
    have later := (leftmost second _ (List.getElem?_eq_getElem inside') hart).mp member'
    exact earlier.not_lt later before

theorem appliesLeftmost_iff (actions : List Action) :
    AppliesLeftmost actions (calls machine actions []) ↔
      Covered (@Action.Matches machine) Action.Named (accepted machine actions) := by
  rw [← served_imp_leftmost_iff]
  constructor
  · intro applies index hart served
    obtain ⟨rule, found, -⟩ := id served
    have inside : index < (calls machine actions []).length := by
      rw [length_calls]
      exact (List.getElem?_eq_some_iff.mp found).1
    have made := List.getElem?_eq_getElem inside
    rw [← leftmost_accepted_iff inside, ← applies.leftmost index _ made hart]
    exact (mem_hartsrun made hart).mpr served
  · intro servedLeftmost
    have leftmost (index : Nat) (call : Call machine)
        (made : (calls machine actions [])[index]? = some call) (hart : Fin machine.count) :
        hart ∈ call.hartsrun ↔ Leftmost Action.Matches actions index hart := by
      have inside := (List.getElem?_eq_some_iff.mp made).1
      rw [mem_hartsrun made, leftmost_accepted_iff inside]
      exact ⟨servedLeftmost index hart, fun leftmost => leftmost.served⟩
    refine ⟨once_of_leftmost leftmost, leftmost, ?_⟩
    intro index call made
    obtain ⟨-, ⟨action, place, single⟩, -⟩ := calls_spec actions [] made
    exact ⟨action, place, by rw [single, beq_iff_eq]⟩

/-- `vCont` makes the calls of its actions, and these apply the leftmost action to every hart
exactly if the actions for all harts or any share with later ones only harts that were named
before. -/
theorem vCont_applies_leftmost_iff (machine : Machine) (actions : List Action) :
    vContFrom actions [] none =
        performCalls (calls machine actions []) (ending machine actions) none ∧
      (AppliesLeftmost actions (calls machine actions []) ↔
        Covered (@Action.Matches machine) Action.Named (accepted machine actions)) :=
  ⟨vContFrom_eq_performCalls actions [] none, appliesLeftmost_iff actions⟩

/-- All harts are resumed, and then the only one again for a step. -/
theorem not_appliesLeftmost : ¬∀ (machine : Machine) (actions : List Action),
    (∀ action ∈ actions, (action.action = byte 's' ∨ action.action = byte 'c') ∧ -1 ≤ action.tid) →
      AppliesLeftmost actions (calls machine actions []) := by
  intro claim
  have applies := claim lone [⟨byte 'c', -1⟩, ⟨byte 's', 1⟩] (by decide)
  exact absurd applies.once (by decide +kernel)

end SymexVP.Gdb.Handlers
