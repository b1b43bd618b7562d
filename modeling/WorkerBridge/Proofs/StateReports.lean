/-
  WorkerBridge.Proofs.StateReports

  The states that are reported form a path in the lifecycle graph.

  `Lifecycle.leadsTo` is the graph. `Path` follows a list of effects through it:
  every report goes along an edge, and a job is handed over only in the busy state.
  A path is a walk (`Walks`) if what is reported to the editor is also what is shown
  to those who look. Walks are put together, so each turn is walked through in its
  parts (`Reacts.walks`), and a run in its turns (`run_walks`). The state that
  callers see is changed by what is shown and by nothing else
  (`World.carryOut_shown`).
-/
import Mathlib.Data.List.Chain
import Mathlib.Data.List.Destutter
import WorkerBridge.Proofs.Sends
import WorkerBridge.Rehearsal.Turns

namespace WorkerBridge

/-! ## The graph -/

/-- Whether a state may follow another. A worker that is up or given up is replaced only on
    request. -/
def Lifecycle.leadsTo (onRequest : Bool) : Lifecycle → Lifecycle → Bool
  | .starting, .ready | .starting, .crashed | .starting, .unavailable | .starting, .stopped => true
  | .ready, .busy | .ready, .crashed | .ready, .unavailable | .ready, .stopped => true
  | .busy, .ready | .busy, .crashed | .busy, .unavailable | .busy, .stopped => true
  | .ready, .starting | .busy, .starting | .unavailable, .starting => onRequest
  | .crashed, .starting | .crashed, .stopped => true
  | .unavailable, .stopped => true
  | _, _ => false

namespace Lifecycle

variable {s s' : Lifecycle}

theorem ne_of_leadsTo {onRequest : Bool} (h : leadsTo onRequest s s') : s ≠ s' := by
  rintro rfl
  cases s <;> cases h

theorem leadsTo_onRequest {onRequest : Bool} (h : leadsTo onRequest s s') : leadsTo true s s' := by
  cases onRequest with
  | true => exact h
  | false => cases s <;> cases s' <;> first | rfl | cases h

theorem eq_ready_of_leadsTo_busy {onRequest : Bool} (h : leadsTo onRequest s .busy) :
    s = .ready := by
  cases s <;> first | rfl | cases h

end Lifecycle

/-! ## Reports -/

/-- The state that an effect reports to the editor. -/
def Effect.state? : Effect → Option Lifecycle
  | .emit (.state s) => some s
  | _ => none

/-- The states that the effects report, in order. -/
def states (effects : List Effect) : List Lifecycle :=
  effects.filterMap Effect.state?

theorem states_append (xs ys : List Effect) : states (xs ++ ys) = states xs ++ states ys :=
  List.filterMap_append

/-- The state that an effect shows to those who look. -/
def Effect.displayed? : Effect → Option Lifecycle
  | .display s => some s
  | _ => none

/-- The states that the effects show, in order. -/
def displays (effects : List Effect) : List Lifecycle :=
  effects.filterMap Effect.displayed?

theorem displays_append (xs ys : List Effect) :
    displays (xs ++ ys) = displays xs ++ displays ys :=
  List.filterMap_append

/-! ## Paths -/

/-- The reports lead from one state to another along the graph, and a job is handed over only in
    the busy state. -/
def Path (onRequest : Bool) : Lifecycle → List Effect → Lifecycle → Prop
  | s, [], s' => s = s'
  | s, .emit (.state t) :: rest, s' => s.leadsTo onRequest t ∧ Path onRequest t rest s'
  | s, .send .. :: rest, s' => s = .busy ∧ Path onRequest s rest s'
  | s, _ :: rest, s' => Path onRequest s rest s'

namespace Path

variable {onRequest : Bool} {s s' s'' : Lifecycle} {xs ys : List Effect}

theorem append (h : Path onRequest s xs s') (h' : Path onRequest s' ys s'') :
    Path onRequest s (xs ++ ys) s'' := by
  fun_induction Path onRequest s xs s' with
  | case1 s s' =>
    cases h
    exact h'
  | case2 s t rest s' ih => exact ⟨h.1, ih h.2 h'⟩
  | case3 s _ _ _ rest s' ih => exact ⟨h.1, ih h.2 h'⟩
  | case4 s x rest s' noState noSend ih =>
    rw [List.cons_append, Path]
    · exact ih h h'
    · exact noState
    · exact noSend

/-- The reports of a path go along the graph, up to the state where it ends. -/
theorem isChain (h : Path onRequest s xs s') :
    (s :: states xs).IsChain (Lifecycle.leadsTo onRequest · ·) ∧
      (s :: states xs).getLast? = some s' := by
  fun_induction Path onRequest s xs s' with
  | case1 s s' =>
    cases h
    exact ⟨List.isChain_singleton _, rfl⟩
  | case2 s t rest s' ih =>
    obtain ⟨chain, last⟩ := ih h.2
    exact ⟨List.isChain_cons_cons.2 ⟨h.1, chain⟩, (List.getLast?_cons_cons ..).trans last⟩
  | case3 s _ _ _ rest s' ih => exact ih h.2
  | case4 s x rest s' noState noSend ih =>
    have none : x.state? = none := by
      unfold Effect.state?
      split
      · next t => exact absurd rfl (noState t)
      · rfl
    rw [states, List.filterMap_cons_none none]
    exact ih h

/-- A path goes through its effects one by one. -/
theorem split (h : Path onRequest s (xs ++ ys) s'') :
    ∃ s', Path onRequest s xs s' ∧ Path onRequest s' ys s'' := by
  induction xs generalizing s with
  | nil => exact ⟨s, rfl, h⟩
  | cons x xs ih =>
    rw [List.cons_append] at h
    unfold Path at h
    split at h
    · next => simp at *
    · next t _ _ heq =>
      obtain ⟨rfl, rfl⟩ := List.cons.inj heq
      obtain ⟨s', front, back⟩ := ih h.2
      exact ⟨s', ⟨h.1, front⟩, back⟩
    · next heq =>
      obtain ⟨rfl, rfl⟩ := List.cons.inj heq
      obtain ⟨s', front, back⟩ := ih h.2
      exact ⟨s', ⟨h.1, front⟩, back⟩
    · next noState noSend heq =>
      obtain ⟨rfl, rfl⟩ := List.cons.inj heq
      obtain ⟨s', front, back⟩ := ih h
      exact ⟨s', by rw [Path] <;> assumption, back⟩

theorem weaken (h : Path onRequest s xs s') : Path true s xs s' := by
  fun_induction Path onRequest s xs s' with
  | case1 s s' => exact h
  | case2 s t rest s' ih => exact ⟨Lifecycle.leadsTo_onRequest h.1, ih h.2⟩
  | case3 s _ _ _ rest s' ih => exact ⟨h.1, ih h.2⟩
  | case4 s x rest s' noState noSend ih =>
    rw [Path]
    · exact ih h
    · exact noState
    · exact noSend

end Path

/-! ## Walks -/

/-- The effects lead from one state to another: what they report goes along the graph, and what
    they show is what they report. -/
structure Walks (onRequest : Bool) (s : Lifecycle) (effects : List Effect) (s' : Lifecycle) :
    Prop where
  path : Path onRequest s effects s'
  shown : displays effects = states effects

namespace Walks

variable {onRequest : Bool} {s s' s'' : Lifecycle} {xs ys : List Effect}

theorem nil : Walks onRequest s [] s :=
  ⟨rfl, rfl⟩

theorem append (h : Walks onRequest s xs s') (h' : Walks onRequest s' ys s'') :
    Walks onRequest s (xs ++ ys) s'' where
  path := h.path.append h'.path
  shown := by rw [displays_append, states_append, h.shown, h'.shown]

theorem weaken (h : Walks onRequest s xs s') : Walks true s xs s' :=
  ⟨h.path.weaken, h.shown⟩

end Walks

/-! ## Effects that are about no state -/

/-- An effect that neither reports a state nor shows one, and hands nothing over. -/
structure Effect.Quiet (x : Effect) : Prop where
  state : x.state? = none
  displayed : x.displayed? = none
  sent : x.sent? = none

/-- The effects are about no state, and hand nothing over. -/
def Quiet (effects : List Effect) : Prop :=
  ∀ x ∈ effects, x.Quiet

@[simp] theorem quiet_nil : Quiet [] :=
  fun _ hx => nomatch hx

@[simp] theorem quiet_append {xs ys : List Effect} : Quiet (xs ++ ys) ↔ Quiet xs ∧ Quiet ys :=
  List.forall_mem_append

@[simp] theorem quiet_cons {x : Effect} {xs : List Effect} :
    Quiet (x :: xs) ↔ x.Quiet ∧ Quiet xs :=
  List.forall_mem_cons

theorem quiet_toList {α : Type} (x : Option α) (effect : α → Effect)
    (h : ∀ a, (effect a).Quiet) : Quiet (x.map effect).toList := by
  cases x with
  | none => exact quiet_nil
  | some a => simpa using h a

theorem Quiet.walks {effects : List Effect} (h : Quiet effects) (onRequest : Bool)
    (s : Lifecycle) : Walks onRequest s effects s := by
  induction effects with
  | nil => exact .nil
  | cons x xs ih =>
    obtain ⟨quiet, rest⟩ := quiet_cons.1 h
    obtain ⟨path, shown⟩ := ih rest
    constructor
    · rw [Path]
      · exact path
      · rintro t rfl
        cases quiet.state
      · rintro w id request rfl
        cases quiet.sent
    · rw [displays, states, List.filterMap_cons_none quiet.displayed,
        List.filterMap_cons_none quiet.state]
      exact shown

namespace Engine

theorem quiet_announce {events : List Event} (h : ∀ x ∈ events, x.isDiagnostic) :
    Quiet (announce events) := by
  intro effect heffect
  obtain ⟨event, hevent, rfl⟩ := List.mem_map.1 heffect
  have diagnostic := h event hevent
  cases event with
  | diagnostics | cleared => exact ⟨rfl, rfl, rfl⟩
  | notify | finished | progress | state => cases diagnostic

@[simp] theorem quiet_finish (j : Job) (outcome : Outcome) : Quiet (finish j outcome) := by
  have told := quiet_toList j.waiter (Effect.tell · outcome) fun _ => ⟨rfl, rfl, rfl⟩
  exact quiet_append.2 ⟨told, quiet_cons.2 ⟨⟨rfl, rfl, rfl⟩, quiet_nil⟩⟩

theorem quiet_finish_all {α : Type} (job : α → Job) (outcome : α → Outcome) (xs : List α) :
    Quiet (xs.flatMap fun x => finish (job x) (outcome x)) := by
  intro effect heffect
  obtain ⟨x, -, hx⟩ := List.mem_flatMap.1 heffect
  exact quiet_finish (job x) (outcome x) effect hx

@[simp] theorem quiet_finish_queue (outcome : Outcome) (jobs : List Job) :
    Quiet (jobs.flatMap (finish · outcome)) :=
  quiet_finish_all id (fun _ => outcome) jobs

@[simp] theorem quiet_finish_flights (outcome : Flight → Outcome) (flights : List Flight) :
    Quiet (flights.flatMap fun f => finish f.job (outcome f)) :=
  quiet_finish_all Flight.job outcome flights

@[simp] theorem quiet_notify (level : NotifyLevel) (message : String) :
    (notify level message).Quiet :=
  ⟨rfl, rfl, rfl⟩

/-! ## Turns -/

variable {onRequest : Bool} {now : Nat} {e : Engine} {input : Input} {t : Turn}

/-- Going over to a state that may follow, if it is not the present one. -/
theorem walks_state {s s' : Lifecycle} (h : s ≠ s' → s.leadsTo onRequest s') :
    Walks onRequest s (if s = s' then [] else proclaim s') s' := by
  by_cases same : s = s'
  · rw [if_pos same, same]
    exact .nil
  · rw [if_neg same]
    exact ⟨⟨h same, rfl⟩, rfl⟩

theorem dispatch_walks (up : e.lifecycle.isUp → e.worker.isSome) :
    Walks onRequest e.lifecycle (dispatch now e).effects (dispatch now e).state.lifecycle := by
  rcases dispatch_cases now e up with
    ⟨-, heq⟩ | ⟨isUp, -, -, heq⟩ | ⟨w, job, rest, isUp, -, -, -, hstate, heffects⟩
  · rw [heq]
    exact .nil
  · rw [heq, setState_state, setState_effects]
    refine walks_state fun other => ?_
    rcases (isUp_iff _).1 isUp with hl | hl
    · exact absurd hl other
    · rw [hl]
      rfl
  · rw [heffects, hstate]
    refine ((quiet_announce (e.documentsAt_isDiagnostic job)).walks _ _).append ?_
    refine (walks_state fun other => ?_).append ⟨⟨rfl, rfl⟩, rfl⟩
    rcases (isUp_iff _).1 isUp with hl | hl
    · rw [hl]
      rfl
    · exact absurd hl other

/-- A failure ends in one of two states. -/
theorem scheduleRestart_walks {s : Lifecycle} (present : e.lifecycle = s)
    (crashed : s.leadsTo onRequest .crashed) (unavailable : s.leadsTo onRequest .unavailable) :
    Walks onRequest s (scheduleRestart now e).effects
      (scheduleRestart now e).state.lifecycle := by
  subst present
  rcases scheduleRestart_cases now e with ⟨-, hstate, heffects⟩ | ⟨-, hstate, heffects⟩
  · rw [hstate, heffects]
    exact walks_state fun _ => crashed
  · rw [hstate, heffects]
    refine (((quiet_finish_queue _ _).walks _ _).append ?_).append (Quiet.walks (by simp) _ _)
    exact walks_state fun _ => unavailable

theorem crash_walks (reason : CloseReason) (up : e.lifecycle = .ready ∨ e.lifecycle = .busy) :
    Walks onRequest e.lifecycle (crash now reason e).effects
      (crash now reason e).state.lifecycle := by
  have abandoned := quiet_toList e.worker Effect.abandon fun _ => ⟨rfl, rfl, rfl⟩
  rw [crash_effects, crash_state]
  refine (Quiet.walks ?_ _ e.lifecycle).append (scheduleRestart_walks rfl ?_ ?_)
  · simp [abandoned]
  · rcases up with up | up <;> simp [up, Lifecycle.leadsTo]
  · rcases up with up | up <;> simp [up, Lifecycle.leadsTo]

/-- In a turn that ends in a dispatch the walk goes on with the dispatch. -/
theorem Walks.thenDispatch {s : Lifecycle} {first : Turn}
    (h : Walks onRequest s first.effects first.state.lifecycle)
    (up : first.state.lifecycle.isUp → first.state.worker.isSome) :
    Walks onRequest s (first.andThen (dispatch now)).effects
      (first.andThen (dispatch now)).state.lifecycle :=
  h.append (dispatch_walks up)

theorem quiet_receive (incoming : Incoming) : Quiet (receive incoming e).effects := by
  rcases receive_cases incoming e with
    ⟨f, -, -, events, documents, failedRestarts, diagnostic, -, heq⟩ |
    ⟨-, events, documents, failedRestarts, abandoned, diagnostic, -, heq⟩
  · rw [heq, quiet_append]
    exact ⟨quiet_announce diagnostic, quiet_finish _ _⟩
  · rw [heq]
    exact quiet_announce diagnostic

/-- **A turn goes along the graph**, and replaces a worker that is up or given up only when it was
    asked to. -/
theorem Reacts.walks (r : Reacts now e input t) (h : e.Consistent) :
    Walks (e.restarts input) e.lifecycle t.effects t.state.lifecycle := by
  cases r with
  | ignored => exact .nil
  | shown => exact ⟨rfl, rfl⟩
  | submitted job =>
    have followed := quiet_announce (e.documents.follow_isDiagnostic job.request)
    rcases submit_cases now job e with ⟨-, heq⟩ | ⟨-, heq⟩
    · rw [heq]
      exact Quiet.walks (quiet_append.2 ⟨followed, quiet_finish _ _⟩) _ _
    · rw [heq]
      exact Walks.thenDispatch (followed.walks _ _) h.up
  | cancelled id =>
    rcases cancel_cases id e with ⟨before, job, after, -, -, heq⟩ | ⟨-, heq⟩
    · rw [heq]
      exact (quiet_finish _ _).walks _ _
    · rw [heq]
      exact (quiet_toList _ _ fun _ => ⟨rfl, rfl, rfl⟩).walks _ _
  | restarted alive =>
    have asked : e.restarts (.command .restart) = true := by
      simpa [restarts, hasEnded] using alive
    have aborted := quiet_toList e.startup Effect.abortStart fun _ => ⟨rfl, rfl, rfl⟩
    have retired := quiet_toList e.worker (Effect.retire · ⟨e.nextId⟩) fun _ => ⟨rfl, rfl, rfl⟩
    rw [asked, restart_effects, restart_state]
    refine (Quiet.walks (by simp [aborted, retired]) _ e.lifecycle).append ?_
    refine (walks_state fun other => ?_).append ⟨rfl, rfl⟩
    revert alive other
    cases e.lifecycle <;> simp [Lifecycle.leadsTo]
  | shutDown caller alive =>
    have aborted := quiet_toList e.startup Effect.abortStart fun _ => ⟨rfl, rfl, rfl⟩
    have retired :=
      quiet_toList e.worker (Effect.retireAndWait · ⟨e.nextId⟩) fun _ => ⟨rfl, rfl, rfl⟩
    have dismissed := quiet_toList caller Effect.dismiss fun _ => ⟨rfl, rfl, rfl⟩
    rw [shutdown_effects, shutdown_state]
    refine Walks.append ?_ (dismissed.walks _ .stopped)
    refine (Quiet.walks (by simp [aborted, retired]) _ e.lifecycle).append ?_
    refine walks_state fun other => ?_
    revert alive
    cases e.lifecycle <;> simp [Lifecycle.leadsTo]
  | heard incoming =>
    have unsettled := receive_unsettled incoming h
    obtain ⟨_, _, _, -, hstate⟩ := receive_frame incoming e
    refine Walks.thenDispatch ?_ unsettled.up
    rw [hstate]
    exact (quiet_receive incoming).walks _ _
  | lost reason alive current => exact crash_walks reason (h.worker.1 (by simp [current]))
  | expired =>
    rw [onDeadline_eq]
    exact Walks.thenDispatch ((quiet_finish_flights _ _).walks _ _) h.up
  | due alive armed =>
    have crashed := h.timer.1 (by simp [armed])
    rw [beginStart_effects, beginStart_state]
    refine (walks_state fun _ => ?_).append ⟨rfl, rfl⟩
    rw [crashed]
    rfl
  | started result alive pending =>
    have starting := h.startup.1 (by simp [pending])
    cases result with
    | ok started =>
      rw [onStarted_ok]
      refine Walks.thenDispatch ?_ fun _ => rfl
      refine Walks.append (Quiet.walks (quiet_toList _ _ fun _ => ⟨rfl, rfl, rfl⟩) _ _) ?_
      refine walks_state fun _ => ?_
      rw [starting]
      rfl
    | error fault =>
      rw [onStarted_error]
      refine (Quiet.walks ?_ _ e.lifecycle).append (scheduleRestart_walks rfl ?_ ?_)
      · simp
      · simp [starting, Lifecycle.leadsTo]
      · simp [starting, Lifecycle.leadsTo]

end Engine

/-! ## What the callers see -/

namespace World

@[simp] theorem wake_shown (a : Agent) (w : World) : (w.wake a).shown = w.shown := by
  unfold wake
  split <;> rfl

@[simp] theorem setLine_shown (k : WorkerId) (l : Line) (w : World) :
    (w.setLine k l).shown = w.shown := rfl

@[simp] theorem hear_shown (t : Ticket) (h : Heard) (w : World) : (w.hear t h).shown = w.shown := by
  unfold hear
  split
  · rfl
  · split
    · rfl
    · rw [wake_shown]
      rfl

@[simp] theorem wakeSenders_shown (k : WorkerId) (w : World) :
    (w.wakeSenders k).shown = w.shown := by
  refine wakeSenders_induction (P := fun v => v.shown = w.shown) (fun v a same => ?_) k rfl
  rw [wake_shown, same]

@[simp] theorem post_shown (k : WorkerId) (m : Outgoing) (w : World) :
    (w.post k m).shown = w.shown := by
  simp [post, apply_ite World.shown]

@[simp] theorem release_shown (k : WorkerId) (w : World) : (w.release k).shown = w.shown := by
  simp [release, apply_ite World.shown]

@[simp] theorem kill_shown (k : WorkerId) (w : World) : (w.kill k).shown = w.shown := by
  unfold kill exit
  grind [wake_shown, wakeSenders_shown, setLine_shown]

@[simp] theorem abortStart_shown (s : StartId) (w : World) : (w.abortStart s).shown = w.shown := by
  unfold abortStart
  split
  · rfl
  · split
    · simp
    · rfl
    · rw [wake_shown]
      rfl

/-- The world after an effect. An effect that has to wait changes nothing. -/
def carryOut (w : World) (x : Effect) : World :=
  (w.perform x).getD w

/-- Only what shows a state changes the one that callers see. -/
theorem carryOut_shown (w : World) (x : Effect) :
    (w.carryOut x).shown = x.displayed?.getD w.shown := by
  cases x with
  | emit | display | retireAndWait => rfl
  | send k id request =>
    simp only [carryOut, perform]
    split
    · rfl
    · split
      · simp [Effect.displayed?]
      · rfl
  | tell | exhibit | dismiss | abandon | retire | start | abortStart =>
    simp [carryOut, perform, Effect.displayed?, beginStop]

/-- The states that callers see while the effects are carried out, one after the other. -/
def seen (w : World) : List Effect → List Lifecycle
  | [] => [w.shown]
  | x :: xs => w.shown :: (w.carryOut x).seen xs

/-- What callers see is what is shown, if no state is shown twice in a row. -/
theorem seen_destutter {w : World} {xs : List Effect}
    (apart : (w.shown :: displays xs).IsChain (· ≠ ·)) :
    (w.seen xs).destutter (· ≠ ·) = w.shown :: displays xs := by
  -- A state that is still seen does not count again.
  have again : ∀ (w : World) (xs : List Effect), (w.seen xs).destutter (· ≠ ·) =
      (w.seen xs).destutter' (· ≠ ·) w.shown := by
    intro w xs
    cases xs <;> rw [seen, List.destutter'_cons_neg _ (not_not.2 rfl)] <;> rfl
  induction xs generalizing w with
  | nil => rfl
  | cons x xs ih =>
    have next := carryOut_shown w x
    rw [again, seen, List.destutter'_cons_neg _ (not_not.2 rfl)]
    cases hx : x.displayed? with
    | none =>
      rw [hx, Option.getD_none] at next
      rw [displays, List.filterMap_cons_none hx, ← next] at apart ⊢
      rw [← again]
      exact ih apart
    | some s =>
      rw [hx, Option.getD_some] at next
      rw [displays, List.filterMap_cons_some hx] at apart ⊢
      obtain ⟨other, apart⟩ := List.isChain_cons_cons.1 apart
      rw [← next] at other apart ⊢
      have rest := ih apart
      obtain ⟨later, hlater⟩ : ∃ later, (w.carryOut x).seen xs = (w.carryOut x).shown :: later := by
        cases xs <;> exact ⟨_, rfl⟩
      rw [hlater] at rest ⊢
      rw [List.destutter'_cons_pos _ other]
      exact congrArg (w.shown :: ·) rest

end World

/-! ## Runs -/

theorem Moment.walks {m : Moment} (h : m.before.Consistent) :
    Walks (m.met Engine.restarts) m.before.lifecycle m.effects m.after.lifecycle := by
  rcases m with ⟨e, o⟩
  cases o with
  | draw => exact .nil
  | input now input => exact (Engine.step_reacts now e input).walks h

namespace History

theorem run_walks (policy : RestartPolicy) (os : List Occasion) :
    Walks true .starting (run policy os).effects (run policy os).engine.lifecycle := by
  induction os using List.reverseRecOn with
  | nil => exact .nil
  | append_singleton os o ih =>
    have turn : Walks _ _ (((run policy os).engine.answer o).effects) _ :=
      Moment.walks (m := ⟨(run policy os).engine, o⟩) (run_consistent policy os)
    rw [run_concat, effects_extend, engine_extend]
    exact ih.append turn.weaken

/-- A walk that ends in the busy state came there from the ready state. -/
theorem ready_before_busy {s : Lifecycle} {ss : List Lifecycle} {onRequest : Bool}
    (chain : (s :: ss).IsChain (Lifecycle.leadsTo onRequest · ·)) (start : s ≠ .busy)
    (last : (s :: ss).getLast? = some .busy) : ∃ p, s :: ss = p ++ [.ready, .busy] := by
  obtain ⟨front, hfront⟩ := List.getLast?_eq_some_iff.1 last
  rcases List.eq_nil_or_concat front with rfl | ⟨p, t, rfl⟩
  · cases hfront
    exact absurd rfl start
  · rw [List.concat_eq_append, List.append_assoc] at hfront
    rw [hfront] at chain
    have edge := (List.isChain_append_cons_cons.1 chain).2.1
    rw [Lifecycle.eq_ready_of_leadsTo_busy edge] at hfront
    exact ⟨p, hfront⟩

/-- **State reports follow the lifecycle graph.** In every run, the states that are reported,
    behind the initial one, are exactly the states that callers see, one after the other, while
    the effects are carried out; no state is reported twice in a row. All of them go along the
    graph, each turn from the state before it to the state after it, and a turn takes an edge that
    needs a request only if it answers the command to replace the worker. Nothing becomes busy and
    no job is handed over unless the ready state was reported since the last time that a start was
    reported. -/
theorem state_reports_follow_graph (policy : RestartPolicy) (os : List Occasion) :
    let h := run policy os
    (∀ w : World, w.shown = .starting →
      (w.seen h.effects).destutter (· ≠ ·) = .starting :: states h.effects) ∧
    (.starting :: states h.effects).IsChain (fun s s' => s ≠ s' ∧ s.leadsTo true s') ∧
    (∀ m ∈ h.past,
      (m.before.lifecycle :: states m.effects).IsChain
        (Lifecycle.leadsTo (m.met Engine.restarts) · ·) ∧
      (m.before.lifecycle :: states m.effects).getLast? = some m.after.lifecycle) ∧
    ∀ front x back, h.effects = front ++ x :: back →
      (x = .emit (.state .busy) ∨ ∃ w id request, x = .send w id request) →
      ∃ p q, .starting :: states front = p ++ .ready :: q ∧ .starting ∉ q := by
  intro h
  have walk : Walks true .starting h.effects h.engine.lifecycle := run_walks policy os
  have chain := walk.path.isChain.1
  refine ⟨fun w start => ?_, chain.imp fun s s' edge => ⟨Lifecycle.ne_of_leadsTo edge, edge⟩,
    fun m hm => ?_, ?_⟩
  · rw [← walk.shown, ← start] at chain ⊢
    exact World.seen_destutter (chain.imp fun s s' edge => Lifecycle.ne_of_leadsTo edge)
  · obtain ⟨before, after, hpast⟩ := List.append_of_mem hm
    exact (Moment.walks (consistent_of_past hpast)).path.isChain
  · intro front x back heffects hx
    rw [heffects] at walk
    obtain ⟨s, before, behind⟩ := walk.path.split
    obtain ⟨chain, last⟩ := before.isChain
    rcases hx with rfl | ⟨w, id, request, rfl⟩
    · -- Only the ready state leads to the busy one.
      rw [Lifecycle.eq_ready_of_leadsTo_busy behind.1] at last
      obtain ⟨p, hp⟩ := List.getLast?_eq_some_iff.1 last
      exact ⟨p, [], hp, List.not_mem_nil⟩
    · rw [behind.1] at last
      obtain ⟨p, hp⟩ := ready_before_busy chain (by simp) last
      exact ⟨p, [.busy], hp, by simp⟩

end History

end WorkerBridge
