import SymexVP.ActionRuns
import SymexVP.GdbReplies

/-!
# Sessions with the debugger

`vCont` resumes the harts of its actions and waits until the first of them stops; then it
stops the others. It waits forever for a hart whose runner has left its loop, and it knows
neither the action to stop a hart nor those that deliver a signal. In a session that keeps
clear of this, and selects only threads that exist, every command is answered.
-/

namespace SymexVP.Gdb.Handlers

open Exec

variable {machine : Machine} {server : Server machine}

/-! ## Stopping harts -/

/-- A hart that counts as running has a runner that is running it. -/
def Attended (harts : Fin machine.count → Hart) (hart : Fin machine.count) : Prop :=
  (harts hart).status = .runnable → (harts hart).runner = true

section Stopping

variable {woken : List (Fin machine.count)} {hart other : Fin machine.count}
  {status : Fin machine.count → CoreExecStatus} {harts : Fin machine.count → Hart}

theorem reported_of_mem (inside : hart ∈ woken) :
    reported harts woken status hart =
      { harts hart with status := status hart, runner := status hart != .terminated } := if_pos inside

theorem reported_of_not_mem (parked : hart ∉ woken) :
    reported harts woken status hart = harts hart := if_neg parked

theorem attended_reported (attended : hart ∉ woken → Attended harts hart) :
    Attended (reported harts woken status) hart := by
  unfold Attended reported
  split_ifs with inside
  · intro running
    simp_all
  · exact attended inside

theorem attended_halted (stopped : Fin machine.count) (attended : Attended harts hart) :
    Attended (halted harts woken stopped status) hart := by
  unfold Attended halted
  split_ifs with same ended running
  · exact nofun
  · exact nofun
  · intro runs
    simp_all
  · exact attended

/-- What has stopped stays as it is while another hart is stopped. -/
theorem halted_of_stopped {stopped : Fin machine.count} (rests : (harts hart).status ≠ .runnable)
    (other : hart ≠ stopped) : halted harts woken stopped status hart = harts hart := by
  unfold halted
  rw [if_neg other, if_neg fun both => rests both.2]

/-- A hart that no runner runs is not affected either. -/
theorem halted_of_parked {stopped : Fin machine.count} (parked : hart ∉ woken)
    (other : hart ≠ stopped) : halted harts woken stopped status hart = harts hart := by
  unfold halted
  rw [if_neg other, if_neg fun both => parked both.1]

theorem setStatus_self (status : CoreExecStatus) :
    setStatus harts hart status hart = { harts hart with status := status } :=
  Function.update_self _ _ _

theorem setStatus_of_ne (different : other ≠ hart) (status : CoreExecStatus) :
    setStatus harts hart status other = harts other := Function.update_of_ne different _ _

/-- The server after a hart has been stopped. -/
def stoppedServer (server : Server machine) (woken : List (Fin machine.count))
    (hart : Fin machine.count) : Server machine :=
  let told := setStatus server.harts hart .hitBreakpoint
  { server with
    world := (machine.halt server.world told hart).1
    harts := halted told woken hart (machine.halt server.world told hart).2 }

theorem stopHart_of_stopped (rests : (server.harts hart).status ≠ .runnable) :
    (stopHart woken hart).run server = ⟨.ok (server.harts hart).status, server, []⟩ := by
  rw [stopHart, bind_run, get_run, Outcome.andThen_ok, if_pos rests]
  rfl

theorem stopHart_of_running (runs : (server.harts hart).status = .runnable)
    (attended : (server.harts hart).runner = true) :
    (stopHart woken hart).run server = ⟨.ok .runnable, stoppedServer server woken hart, []⟩ := by
  rw [stopHart, bind_run, get_run, Outcome.andThen_ok, if_neg (not_not.mpr runs),
    if_neg (by simp [attended]), runs]
  rfl

theorem stopHart_of_unattended (runs : (server.harts hart).status = .runnable)
    (unattended : (server.harts hart).runner = false) :
    ((stopHart woken hart).run server).result = .error .blocked := by
  rw [stopHart, bind_run, get_run, Outcome.andThen_ok, if_neg (not_not.mpr runs), if_pos unattended]
  rfl

theorem attended_stoppedServer (attended : Attended server.harts other) :
    Attended (stoppedServer server woken hart).harts other := by
  refine attended_halted hart ?_
  by_cases same : other = hart
  · rw [same, Attended, setStatus_self]
    exact nofun
  · rw [Attended, setStatus_of_ne same]
    exact attended

theorem stoppedServer_of_stopped (runs : (server.harts hart).status = .runnable)
    (rests : (server.harts other).status ≠ .runnable) :
    (stoppedServer server woken hart).harts other = server.harts other := by
  have different : other ≠ hart := fun same => rests (same ▸ runs)
  have told : setStatus server.harts hart .hitBreakpoint other = server.harts other :=
    setStatus_of_ne different .hitBreakpoint
  exact (halted_of_stopped (by rwa [told]) different).trans told

theorem stoppedServer_of_parked (parked : other ∉ woken) (different : other ≠ hart) :
    (stoppedServer server woken hart).harts other = server.harts other :=
  (halted_of_parked parked different).trans (setStatus_of_ne different _)

/-- Stopping attended harts returns. What had stopped before is found so. -/
theorem stopHarts_of_attended (list : List (Fin machine.count)) (server : Server machine)
    (attended : ∀ hart ∈ list, Attended server.harts hart) :
    ∃ after original, (stopHarts woken list).run server = ⟨.ok original, after, []⟩ ∧
      ∀ hart, (server.harts hart).status ≠ .runnable → after.harts hart = server.harts hart ∧
        ∀ entry ∈ original, entry.1 = hart → entry.2 ≠ .runnable := by
  induction list generalizing server with
  | nil => exact ⟨server, [], rfl, fun hart rests => ⟨rfl, nofun⟩⟩
  | cons first rest inductionHypothesis =>
      rw [stopHarts, bind_run]
      by_cases runs : (server.harts first).status = .runnable
      · rw [stopHart_of_running runs (attended first List.mem_cons_self runs), Outcome.andThen_ok]
        obtain ⟨after, original, stopped, kept⟩ := inductionHypothesis (stoppedServer server woken first)
          fun hart member => attended_stoppedServer (attended hart (List.mem_cons_of_mem _ member))
        rw [bind_run, stopped]
        refine ⟨after, (first, .runnable) :: original, rfl, fun hart rests => ?_⟩
        have same : (stoppedServer server woken first).harts hart = server.harts hart :=
          stoppedServer_of_stopped runs rests
        obtain ⟨harts, entries⟩ := kept hart (by rwa [same])
        refine ⟨harts.trans same, ?_⟩
        rintro entry (_ | ⟨_, member⟩) key
        · have same' : first = hart := key
          exact absurd (same' ▸ runs) rests
        · exact entries entry member key
      · rw [stopHart_of_stopped runs, Outcome.andThen_ok]
        obtain ⟨after, original, stopped, kept⟩ := inductionHypothesis server
          fun hart member => attended hart (List.mem_cons_of_mem _ member)
        rw [bind_run, stopped]
        refine ⟨after, (first, _) :: original, rfl, fun hart rests => ?_⟩
        obtain ⟨harts, entries⟩ := kept hart rests
        refine ⟨harts, ?_⟩
        rintro entry (_ | ⟨_, member⟩) key
        · exact runs
        · exact entries entry member key

/-- A hart that counts as running and that no runner runs is waited for. -/
theorem stopHarts_of_unattended (list : List (Fin machine.count)) (server : Server machine)
    (member : hart ∈ list) (parked : hart ∉ woken) (unattended : ¬Attended server.harts hart) :
    ((stopHarts woken list).run server).result = .error .blocked := by
  induction list generalizing server with
  | nil => cases member
  | cons first rest inductionHypothesis =>
      rw [stopHarts]
      by_cases runs : (server.harts first).status = .runnable
      · by_cases attended : (server.harts first).runner = true
        · have later : hart ≠ first := fun same => unattended fun _ => same ▸ attended
          have stopped : (stopHart woken first).run server =
              ⟨.ok .runnable, stoppedServer server woken first, []⟩ := stopHart_of_running runs attended
          have kept : (stoppedServer server woken first).harts hart = server.harts hart :=
            stoppedServer_of_parked parked later
          refine bind_eq_error.mpr (.inr ⟨.runnable, by rw [stopped], ?_⟩)
          rw [stopped]
          refine bind_eq_error.mpr (.inl (inductionHypothesis _ ?_ ?_))
          · exact (List.mem_cons.mp member).resolve_left later
          · rwa [Attended, kept]
        · exact bind_eq_error.mpr
            (.inl (stopHart_of_unattended runs (Bool.eq_false_of_not_eq_true attended)))
      · have later : hart ≠ first := fun same => unattended fun running => absurd (same ▸ running) runs
        have stopped : (stopHart woken first).run server =
            ⟨.ok (server.harts first).status, server, []⟩ := stopHart_of_stopped runs
        refine bind_eq_error.mpr (.inr ⟨_, by rw [stopped], ?_⟩)
        rw [stopped]
        refine bind_eq_error.mpr (.inl (inductionHypothesis _ ?_ unattended))
        exact (List.mem_cons.mp member).resolve_left later

/-- Restoring statuses none of which is the one of a running hart does not make it run. -/
theorem restored_status (original : List (Fin machine.count × CoreExecStatus))
    (harts : Fin machine.count → Hart) (rests : (harts hart).status ≠ .runnable)
    (entries : ∀ entry ∈ original, entry.1 = hart → entry.2 ≠ .runnable) :
    (restored harts original hart).status ≠ .runnable := by
  induction original generalizing harts with
  | nil => exact rests
  | cons first rest inductionHypothesis =>
      obtain ⟨key, status⟩ := first
      refine inductionHypothesis _ ?_ fun entry member => entries entry (List.mem_cons_of_mem _ member)
      by_cases same : hart = key
      · rw [same, setStatus_self]
        exact entries (key, status) List.mem_cons_self same.symm
      · rwa [setStatus_of_ne same]

end Stopping

/-! ## Running harts -/

/-- Those of the harts whose runner is in its loop. -/
def attendedHarts (server : Server machine) (harts : List (Fin machine.count)) :
    List (Fin machine.count) :=
  harts.filter fun hart => (server.harts hart).runner

/-- The harts stop again when they are resumed: one of them has a runner, the machine stops one of
them, and none counts as running without a runner. -/
structure Stops (server : Server machine) (hartsrun : List (Fin machine.count)) (single : Bool) :
    Prop where
  woken : attendedHarts server hartsrun ≠ []
  resumes : (machine.resume server.world server.harts (attendedHarts server hartsrun) single).isSome
  attended : ∀ hart ∈ hartsrun, Attended server.harts hart

section Running

variable {hartsrun : List (Fin machine.count)} {single : Bool}

/-- The server when the first of the harts has stopped. -/
def reportedServer (server : Server machine) (hartsrun : List (Fin machine.count)) (single : Bool)
    (world : machine.World) (status : Fin machine.count → CoreExecStatus) : Server machine :=
  { server with
    singleRun := single
    world := world
    harts := reported server.harts (attendedHarts server hartsrun) status }

theorem runThreads_of_resume (some_ : hartsrun ≠ []) (woken : attendedHarts server hartsrun ≠ [])
    {world : machine.World} {status : Fin machine.count → CoreExecStatus}
    (resumed : machine.resume server.world server.harts (attendedHarts server hartsrun) single =
      some (world, status)) :
    (runThreads hartsrun single).run server =
      (stopHarts (attendedHarts server hartsrun) hartsrun >>= fun original =>
        Exec.modify fun server => { server with harts := restored server.harts original }).run
          (reportedServer server hartsrun single world status) := by
  rw [runThreads, if_neg some_, bind_run, modify_run, Outcome.andThen_ok, bind_run, get_run,
    Outcome.andThen_ok]
  dsimp only
  unfold attendedHarts at woken resumed ⊢
  rw [if_neg woken, resumed]
  rfl

theorem runThreads_blocked (some_ : hartsrun ≠ [])
    (nothing : attendedHarts server hartsrun = [] ∨
      machine.resume server.world server.harts (attendedHarts server hartsrun) single = none) :
    ((runThreads hartsrun single).run server).result = .error .blocked := by
  rw [runThreads, if_neg some_, bind_run, modify_run, Outcome.andThen_ok, bind_run, get_run,
    Outcome.andThen_ok]
  dsimp only
  unfold attendedHarts at nothing
  split_ifs with woken
  · rfl
  · rw [nothing.resolve_left woken]
    rfl

theorem mem_attendedHarts {hart : Fin machine.count} :
    hart ∈ attendedHarts server hartsrun ↔ hart ∈ hartsrun ∧ (server.harts hart).runner = true :=
  List.mem_filter

/-- When harts that stop are run, one of them is found stopped in the end. -/
theorem runThreads_of_stops (some_ : hartsrun ≠ []) (stops : Stops server hartsrun single) :
    ∃ after, (runThreads hartsrun single).run server = ⟨.ok (), after, []⟩ ∧
      ∃ hart ∈ hartsrun, (after.harts hart).status ≠ .runnable := by
  obtain ⟨⟨world, status⟩, resumed⟩ := Option.isSome_iff_exists.mp stops.resumes
  obtain ⟨first, member, rests⟩ := machine.stops resumed
  rw [runThreads_of_resume some_ stops.woken resumed, bind_run]
  obtain ⟨after, original, stopped, kept⟩ := @stopHarts_of_attended machine
    (attendedHarts server hartsrun) hartsrun
    (reportedServer server hartsrun single world status)
    fun hart member => attended_reported fun _ => stops.attended hart member
  have found : ((reportedServer server hartsrun single world status).harts first).status ≠
      .runnable := by
    change (reported server.harts _ status first).status ≠ .runnable
    rw [reported_of_mem member]
    exact rests
  obtain ⟨same, entries⟩ := kept first found
  rw [stopped, Outcome.andThen_ok, modify_run]
  refine ⟨_, rfl, first, (mem_attendedHarts.mp member).1, ?_⟩
  exact restored_status original after.harts (by rwa [same]) entries

theorem runThreads_of_not_stops (some_ : hartsrun ≠ []) (runs : ¬Stops server hartsrun single) :
    ((runThreads hartsrun single).run server).result = .error .blocked := by
  by_cases woken : attendedHarts server hartsrun = []
  · exact runThreads_blocked some_ (.inl woken)
  cases resumed : machine.resume server.world server.harts (attendedHarts server hartsrun) single with
  | none => exact runThreads_blocked some_ (.inr resumed)
  | some next =>
      obtain ⟨world, status⟩ := next
      obtain ⟨hart, member, unattended⟩ : ∃ hart ∈ hartsrun, ¬Attended server.harts hart := by
        by_contra all
        push Not at all
        exact runs ⟨woken, by rw [resumed]; rfl, all⟩
      have parked : hart ∉ attendedHarts server hartsrun := fun inside =>
        unattended fun _ => (mem_attendedHarts.mp inside).2
      rw [runThreads_of_resume some_ woken resumed]
      refine bind_eq_error.mpr (.inl (stopHarts_of_unattended hartsrun _ member parked ?_))
      change ¬Attended (reported server.harts _ status) hart
      rwa [Attended, reported_of_not_mem parked]

end Running

/-! ## vCont -/

section Continuing

variable {harts : List (Fin machine.count)} {stop : Stop}

theorem threadOf_positive (hart : Fin machine.count) : 1 ≤ threadOf hart := by
  have small := (machine.hartId hart).small
  unfold threadOf
  rw [BitVec.toInt_eq_toNat_of_lt] <;> rw [BitVec.toNat_setWidth, BitVec.toNat_add] <;> simp <;> omega

/-- A stop that `vCont` may report: the number of a thread. -/
def Reportable (stop : Stop) : Prop := ∀ reason thread, stop = some (reason, thread) → 1 ≤ thread

/-- The last hart found stopped is reported, or what was reported before if all are running. What is
left of the harts does not depend on that. -/
theorem reportStops_run (harts : List (Fin machine.count)) (server : Server machine) (stop : Stop) :
    ∃ last, (reportStops harts stop).run server =
        ⟨.ok last, ((reportStops harts none).run server).state, []⟩ ∧
      (Reportable stop → Reportable last) ∧ (stop ≠ none → last ≠ none) ∧
      ((∃ hart ∈ harts, (server.harts hart).status ≠ .runnable) → last ≠ none) := by
  induction harts generalizing server stop with
  | nil => exact ⟨stop, rfl, id, id, fun ⟨_, impossible, _⟩ => nomatch impossible⟩
  | cons first rest inductionHypothesis =>
      unfold reportStops
      rw [bind_run, get_run, Outcome.andThen_ok, bind_run, get_run, Outcome.andThen_ok]
      have reports (reason : List Byte) : Reportable (some (reason, threadOf first)) := by
        rintro _ _ ⟨⟩
        exact threadOf_positive first
      cases found : (server.harts first).status with
      | hitBreakpoint =>
          dsimp only
          rw [bind_run, modify_run, Outcome.andThen_ok]
          obtain ⟨last, reported, reportable, kept, -⟩ := inductionHypothesis
            { server with harts := setStatus server.harts first .runnable }
            (some (str "05", threadOf first))
          rw [reported]
          exact ⟨last, rfl, fun _ => reportable (reports _), fun _ => kept nofun, fun _ => kept nofun⟩
      | terminated =>
          dsimp only
          obtain ⟨last, reported, reportable, kept, -⟩ :=
            inductionHypothesis server (some (str "03", threadOf first))
          rw [reported]
          exact ⟨last, rfl, fun _ => reportable (reports _), fun _ => kept nofun, fun _ => kept nofun⟩
      | runnable =>
          dsimp only
          obtain ⟨last, reported, reportable, kept, stopped⟩ := inductionHypothesis server stop
          rw [reported]
          refine ⟨last, rfl, reportable, kept, ?_⟩
          rintro ⟨hart, member, rests⟩
          obtain rfl | later := List.mem_cons.mp member
          · exact absurd found rests
          · exact stopped ⟨hart, later, rests⟩

/-- The server after an action of `vCont`. -/
def continued (server : Server machine) (run : List (Fin machine.count)) (single : Bool) :
    Server machine :=
  ((reportStops run none).run ((runThreads run single).run server).state).state

/-- The actions can be taken one after another, as long as their threads exist: each is one to step or
to continue, and the harts it selects, apart from those an earlier action has named, stop again. -/
def Resumable (server : Server machine) : List Action → List (Fin machine.count) → Prop
  | [], _ => True
  | action :: rest, matched =>
      (action.action = byte 's' ∨ action.action = byte 'c') ∧
        ∀ threads, getThreads machine action.tid = .ok threads →
          let run := threads.filter fun hart => hart ∉ matched
          let single := action.action == byte 's'
          (run = [] ∨ Stops server run single) ∧
            Resumable (continued server run single) rest
              (if 0 < action.tid then threads ++ matched else matched)

theorem resumable_cons (server : Server machine) (action : Action) (rest : List Action)
    (matched : List (Fin machine.count)) :
    Resumable server (action :: rest) matched ↔
      (action.action = byte 's' ∨ action.action = byte 'c') ∧
        ∀ threads, getThreads machine action.tid = .ok threads →
          let run := threads.filter fun hart => hart ∉ matched
          let single := action.action == byte 's'
          (run = [] ∨ Stops server run single) ∧
            Resumable (continued server run single) rest
              (if 0 < action.tid then threads ++ matched else matched) := Iff.rfl

/-- Running the harts of an action, if there are any, and reporting on them. -/
theorem run_and_report {run : List (Fin machine.count)} {single : Bool}
    (stops : run = [] ∨ Stops server run single) (stop : Stop) :
    ∃ last, (runThreads run single >>= fun _ => reportStops run stop).run server =
        ⟨.ok last, continued server run single, []⟩ ∧
      (Reportable stop → Reportable last) ∧ (stop ≠ none → last ≠ none) ∧
      (run ≠ [] → last ≠ none) := by
  obtain ⟨after, ran, found⟩ : ∃ after, (runThreads run single).run server = ⟨.ok (), after, []⟩ ∧
      (run ≠ [] → ∃ hart ∈ run, (after.harts hart).status ≠ .runnable) := by
    by_cases empty : run = []
    · exact ⟨server, by rw [runThreads, if_pos empty]; rfl, fun some_ => absurd empty some_⟩
    · obtain ⟨after, ran, found⟩ := runThreads_of_stops empty (stops.resolve_left empty)
      exact ⟨after, ran, fun _ => found⟩
  obtain ⟨last, reported, reportable, kept, stopped⟩ := reportStops_run run after stop
  refine ⟨last, ?_, reportable, kept, fun some_ => stopped (found some_)⟩
  rw [bind_run, ran, Outcome.andThen_ok, reported, continued, ran]
  rfl

theorem getThreads_length {id : Int} {threads : List (Fin machine.count)}
    (found : getThreads machine id = .ok threads) (single : 0 < id) : threads.length = 1 := by
  unfold getThreads GDB_THREAD_ANY GDB_THREAD_ALL at found
  rw [if_neg (by omega)] at found
  split_ifs at found with all small inside
  · omega
  · cases found
    rfl

theorem replies_sendStop (reportable : Reportable stop) (stopped : stop ≠ none) :
    Replies ((sendStop stop).run server) := by
  obtain ⟨⟨reason, thread⟩, rfl⟩ := Option.ne_none_iff_exists'.mp stopped
  have positive := reportable reason thread rfl
  rw [sendStop, require_of positive]
  exact ⟨_, _, rfl⟩

/-- An action without an error is followed by the rest of them. -/
theorem replies_bind {α : Type} {body : ServerM machine α} {next : α → ServerM machine Unit}
    {value : α} {after : Server machine} (ran : body.run server = ⟨.ok value, after, []⟩) :
    Replies ((body >>= next).run server) ↔ Replies ((next value).run after) := by
  unfold Replies
  rw [bind_run, ran, Outcome.andThen_ok, List.nil_append]

theorem not_replies {body : ServerM machine Unit} {fault : Fault}
    (left : (body.run server).result = .error fault) : ¬Replies (body.run server) := by
  rintro ⟨after, reply, ended⟩
  rw [ended] at left
  cases left

/-- `vCont` replies if and only if its actions can be taken one after another. -/
theorem replies_vContFrom (actions : List Action) (matched : List (Fin machine.count)) (stop : Stop)
    (server : Server machine) (reportable : Reportable stop)
    (stopped : stop ≠ none ∨ matched = [] ∧ actions ≠ []) :
    Replies ((vContFrom actions matched stop).run server) ↔ Resumable server actions matched := by
  induction actions generalizing matched stop server with
  | nil =>
      have last : stop ≠ none := stopped.resolve_right fun ⟨_, some_⟩ => some_ rfl
      exact iff_of_true (replies_sendStop reportable last) trivial
  | cons action rest inductionHypothesis =>
      rw [vContFrom, resumable_cons]
      by_cases known : action.action = byte 's' ∨ action.action = byte 'c'
      · rw [if_neg (by tauto), and_iff_right known]
        cases found : getThreads machine action.tid with
        | error fault => exact iff_of_true ⟨_, _, rfl⟩ nofun
        | ok threads =>
            have some_ := getThreads_nonempty found
            have one := getThreads_length found
            simp only [Except.ok.injEq, forall_eq']
            generalize selected : threads.filter (fun hart => decide (hart ∉ matched)) = run
            generalize (action.action == byte 's') = single
            rw [← bind_assoc]
            by_cases stops : run = [] ∨ Stops server run single
            · obtain ⟨last, ran, reports, kept, fresh⟩ := run_and_report stops stop
              have stopped' : last ≠ none := by
                obtain earlier | ⟨rfl, -⟩ := stopped
                · exact kept earlier
                · exact fresh (by simpa [← selected] using some_)
              rw [and_iff_right stops, replies_bind ran]
              by_cases named : 0 < action.tid
              · rw [if_pos named, if_pos named, require_of (one named)]
                exact inductionHypothesis _ _ _ (reports reportable) (.inl stopped')
              · rw [if_neg named, if_neg named]
                exact inductionHypothesis _ _ _ (reports reportable) (.inl stopped')
            · have blocked := runThreads_of_not_stops (fun empty => stops (.inl empty))
                fun again => stops (.inr again)
              refine iff_of_false ?_ fun both => stops both.1
              exact not_replies (bind_eq_error.mpr (.inl (bind_eq_error.mpr (.inl blocked))))
      · rw [if_pos (by tauto)]
        exact iff_of_false (not_replies rfl) fun both => known both.1

end Continuing

/-! ## Sessions -/

/-- What the server can answer with a packet where it is. -/
def Answerable (server : Server machine) : Command → Prop
  | .getRegisters => ∃ threads, getThreads machine server.selected = .ok threads
  | .readMemory addr length =>
      Accesses server .load .read addr (List.replicate length.toNat 0) length.toNat True
  | .writeMemory addr length data =>
      Accesses server .store .write addr (decodeData length.toNat data) length.toNat
        (data.length = 2 * length.toNat)
  | .vCont first rest => Resumable server (first :: rest) []
  | .killServer => False
  | _ => True

theorem replies_isAlive (tid : Int) : Replies ((isAlive tid).run server) := by
  unfold isAlive
  cases getThreads machine tid with
  | ok threads => exact ⟨_, _, rfl⟩
  | error fault => exact ⟨_, _, rfl⟩

theorem replies_changeBreakpoints (type : Nat) (change : List (BitVec 32) → List (BitVec 32)) :
    Replies ((changeBreakpoints type change).run server) := by
  unfold changeBreakpoints
  by_cases hard : type ≠ GDB_ZKIND_SOFT
  · rw [if_pos hard]
    exact ⟨_, _, rfl⟩
  · rw [if_neg hard]
    exact ⟨_, _, rfl⟩

/-- A handler returns with one packet sent if and only if its command is answerable. -/
theorem replies_handle (command : Command) :
    Replies ((handle command).run server) ↔ Answerable server command := by
  cases command with
  | getRegisters => exact replies_getRegisters
  | readMemory addr length => exact replies_readMemory addr length
  | writeMemory addr length data => exact replies_writeMemory addr length data
  | readRegister reg => exact iff_of_true (replies_readRegister reg) trivial
  | isAlive tid => exact iff_of_true (replies_isAlive tid) trivial
  | vCont first rest =>
      exact replies_vContFrom (first :: rest) [] none server nofun (.inr ⟨rfl, List.cons_ne_nil _ _⟩)
  | killServer => exact iff_of_false (not_replies rfl) not_false
  | removeBreakpoint type address => exact iff_of_true (replies_changeBreakpoints _ _) trivial
  | setBreakpoint type address => exact iff_of_true (replies_changeBreakpoints _ _) trivial
  | haltReason | setThread op tid | qAttached | qSupported | threadInfo | threadInfoEnd
  | vContSupported | unsupported => exact iff_of_true ⟨_, _, rfl⟩ trivial

/-- One round of `run`: the handler returns, and has sent one packet. -/
def takes (server : Server machine) (command : Command) : Option (Server machine × List Event) :=
  match (handle command).run server with
  | ⟨.ok (), after, [.packet reply]⟩ => some (after, [.packet reply])
  | _ => none

theorem takes_isSome_iff (command : Command) :
    (takes server command).isSome = true ↔ Replies ((handle command).run server) := by
  unfold takes Replies
  split
  next after reply ended => exact iff_of_true rfl ⟨after, reply, ended⟩
  next other => exact iff_of_false nofun fun ⟨after, reply, ended⟩ => other after reply ended

/-- A machine with one hart, which stops at once when it is resumed. Its memory is empty. -/
def lone : Machine where
  count := 1
  positive := Nat.one_pos
  arch := .RV32
  supported := Architecture.rv32_supported
  hartId := fun _ => ⟨0, HartId.zero_small⟩
  World := Unit
  getRegisters := fun _ _ => Vector.replicate 32 0
  getProgamCounter := fun _ _ => 0
  mmu := fun _ => none
  transportDbg := fun _ _ _ data => ⟨data, 0, true, ()⟩
  resume := fun _ _ woken _ => if woken = [] then none else some ((), fun _ => .hitBreakpoint)
  stops := by
    intro world harts woken single after status resumed
    split_ifs at resumed with none_
    cases resumed
    exact ⟨_, List.head_mem none_, nofun⟩
  halt := fun _ _ _ => ((), fun _ => .hitBreakpoint)

/-- Its server before the first command. -/
def attached : Server lone := ⟨fun _ => none, false, fun _ => ⟨.runnable, [], true⟩, ()⟩

example : (ActionRun.perform takes attached [.readMemory 0 4, .vCont ⟨byte 'c', -1⟩ [],
    .getRegisters]).isSome = true := by decide +kernel

end SymexVP.Gdb.Handlers
