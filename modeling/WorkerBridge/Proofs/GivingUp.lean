/-
  WorkerBridge.Proofs.GivingUp

  Giving up is invisible to everyone else.

  A caller gives up when it cancels its job in flight, or when it stops waiting.
  The flight goes on in both cases, and all that is left of it is who would be
  told. `apart` takes a view of the engine and of its effects from which certain
  callers are left out: whether they wait on the job in flight, whether it was
  cancelled, and what they are told. A turn is the same in this view whether it
  starts from the engine or from the view of it (`step_apart`). The reason is that
  the two differ only while a job is in flight, and then a turn reads of the flight
  all but its caller.

  `GivesUp` relates a run to the same run without some of its cancellations, in
  which callers may also leave that stay in the other one. Such runs are `Alike`:
  every step keeps them the same to all the others.
-/
import WorkerBridge.Proofs.Strays

namespace WorkerBridge

/-! ## The view without certain callers -/

/-- The flight, without its caller if that is one of the given ones, and whether cancelled or
    not. -/
def Flight.apart (callers : List Ticket) (f : Flight) : Flight :=
  { f with cancelled := false, job := { f.job with waiter := f.job.waiter.filter (· ∉ callers) } }

/-- The jobs in flight without the given callers. -/
def InFlight.apart (callers : List Ticket) (t : InFlight) : InFlight :=
  { t with live := t.live.map (Flight.apart callers) }

/-- The engine without the given callers on the job in flight. -/
def Engine.apart (callers : List Ticket) (e : Engine) : Engine :=
  { e with flights := e.flights.apart callers }

/-- The caller that is told, and its outcome. -/
def Effect.told? : Effect → Option (Ticket × Outcome)
  | .tell caller outcome => some (caller, outcome)
  | _ => none

/-- Whether one of the given callers is told something. -/
def Effect.tells (callers : List Ticket) (x : Effect) : Bool :=
  x.told?.any (·.1 ∈ callers)

/-- The effects, except for what the given callers are told. -/
def omitting (callers : List Ticket) (effects : List Effect) : List Effect :=
  effects.filter (!·.tells callers)

/-- The turn without the given callers. -/
def Turn.apart (callers : List Ticket) (t : Turn) : Turn :=
  ⟨t.state.apart callers, omitting callers t.effects⟩

section Views

variable (callers more : List Ticket)

theorem Flight.apart_apart (f : Flight) :
    (f.apart callers).apart more = f.apart (callers ++ more) := by
  have waiter : (f.job.waiter.filter (· ∉ callers)).filter (· ∉ more) =
      f.job.waiter.filter (· ∉ callers ++ more) := by
    cases f.job.waiter with
    | none => rfl
    | some t => by_cases h : t ∈ callers <;> simp [Option.filter_some, h]
  simp only [Flight.apart, waiter]

theorem Flight.apart_self (f : Flight) : (f.apart callers).apart callers = f.apart callers := by
  rw [apart_apart]
  simp [Flight.apart]

theorem InFlight.apart_apart (t : InFlight) :
    (t.apart callers).apart more = t.apart (callers ++ more) := by
  simp [InFlight.apart, Flight.apart_apart]

theorem InFlight.apart_self (t : InFlight) : (t.apart callers).apart callers = t.apart callers := by
  simp [InFlight.apart, Flight.apart_self]

theorem Engine.apart_apart (e : Engine) :
    (e.apart callers).apart more = e.apart (callers ++ more) := by
  simp [Engine.apart, InFlight.apart_apart]

/-- With nothing in flight there is nothing to leave out. -/
theorem Engine.apart_of_landed {e : Engine} (landed : e.flights.live = []) :
    e.apart callers = e := by
  rcases e with ⟨_, _, ⟨live, _⟩⟩
  obtain rfl : live = [] := landed
  rfl

theorem InFlight.find?_apart (t : InFlight) (id : JobId) :
    (t.apart callers).find? id = (t.find? id).map (Flight.apart callers) := by
  simp only [InFlight.find?, InFlight.apart, List.find?_map]
  rfl

theorem InFlight.knows_apart (t : InFlight) (id : JobId) :
    (t.apart callers).knows id = t.knows id := by
  simp only [InFlight.knows, InFlight.apart, List.any_map]
  rfl

theorem InFlight.nextDeadline?_apart (t : InFlight) :
    (t.apart callers).nextDeadline? = t.nextDeadline? := by
  simp only [InFlight.nextDeadline?, InFlight.apart, List.filterMap_map]
  rfl

/-- A job that is cancelled goes on without a caller, whoever that was. -/
theorem InFlight.cancel_apart (t : InFlight) (id : JobId) :
    ((t.apart callers).cancel id).apart callers = (t.cancel id).apart callers := by
  have each : ∀ f : Flight, Flight.apart callers
      (if (f.apart callers).job.id = id then
        { f.apart callers with cancelled := true, job := (f.apart callers).job.told }
      else f.apart callers) =
      Flight.apart callers
        (if f.job.id = id then { f with cancelled := true, job := f.job.told } else f) := by
    intro f
    by_cases hid : f.job.id = id
    · simp [Flight.apart, Job.told, hid]
    · rw [if_neg hid, if_neg (by exact hid)]
      exact f.apart_self callers
  simp [InFlight.cancel, InFlight.apart, each]

@[simp] theorem omitting_append (xs ys : List Effect) :
    omitting callers (xs ++ ys) = omitting callers xs ++ omitting callers ys :=
  List.filter_append ..

theorem omitting_omitting (effects : List Effect) :
    omitting more (omitting callers effects) = omitting (callers ++ more) effects := by
  rw [omitting, omitting, List.filter_filter, omitting]
  congr 1
  funext x
  cases htold : x.told? <;> simp [Effect.tells, htold, Bool.and_comm]

/-- Telling a caller, without the given ones, is telling it unless it is one of them. -/
theorem omitting_tell (waiter : Option Ticket) (outcome : Outcome) :
    omitting callers (((waiter.filter (· ∉ callers)).map (Effect.tell · outcome)).toList) =
      omitting callers ((waiter.map (Effect.tell · outcome)).toList) := by
  cases waiter with
  | none => rfl
  | some t =>
    by_cases h : t ∈ callers <;>
      simp [Option.filter_some, omitting, Effect.tells, Effect.told?, h]

theorem omitting_finish (f : Flight) (outcome : Outcome) :
    omitting callers (Engine.finish (f.apart callers).job outcome) =
      omitting callers (Engine.finish f.job outcome) := by
  have told := omitting_tell callers f.job.waiter outcome
  rw [Engine.finish, Engine.finish, omitting_append, omitting_append]
  exact congrArg (· ++ _) told

/-- The same for all jobs in flight. -/
theorem omitting_finish_all (flights : List Flight) (outcome : Flight → Outcome)
    (same : ∀ f, outcome (f.apart callers) = outcome f) :
    omitting callers ((flights.map (Flight.apart callers)).flatMap fun f =>
        Engine.finish f.job (outcome f)) =
      omitting callers (flights.flatMap fun f => Engine.finish f.job (outcome f)) := by
  induction flights with
  | nil => rfl
  | cons f flights ih =>
    rw [List.map_cons, List.flatMap_cons, List.flatMap_cons, omitting_append, omitting_append, ih,
      same, omitting_finish]

/-- Turns that come to the same state go on alike. -/
theorem Turn.andThen_apart {t t' : Turn} {f : Engine → Turn}
    (effects : omitting callers t'.effects = omitting callers t.effects)
    (state : t'.state = t.state) :
    (t'.andThen f).apart callers = (t.andThen f).apart callers := by
  simp [Turn.apart, Turn.andThen, effects, state]

end Views

namespace Engine

variable {e : Engine} (callers : List Ticket)

/-! ## Answers to the job in flight -/

/-- An answer to the only job in flight retires it with the verdict of the frame. -/
theorem receive_of_flying {incoming : Incoming} {f : Flight} (single : e.flights.live = [f])
    (named : incoming.names? = some f.job.id) :
    receive incoming e =
      ⟨e.heeding incoming f.job.kind { e.flights with live := [] },
        announce (e.documents.adopt (incoming.reports? f.job.kind)).1 ++
          finish f.job (incoming.verdict f.job.kind)⟩ := by
  have hr : e.flights.resolve f.job.id = (.pending f, { e.flights with live := [] }) := by
    simp [InFlight.resolve, InFlight.find?, single]
  cases incoming with
  | response id outcome =>
    obtain rfl : id = f.job.id := Option.some.inj named
    have adopted := applyResponse_adopts f.job.kind f.job.id outcome
      { e with flights := { e.flights with live := [] }, failedRestarts := 0 }
    obtain ⟨_, _, -, -, judged⟩ := applyResponse_eq f.job.kind outcome
      { e with flights := { e.flights with live := [] }, failedRestarts := 0 }
    simp only [receive, onResponse, hr, Turn.andThen, adopted, congrArg Prod.fst judged]
    rfl
  | malformed id fault =>
    obtain rfl : id = some f.job.id := named
    simp only [receive, onMalformed, hr]
    rfl

/-- While a job is in flight nothing is dispatched. -/
theorem andThen_dispatch_of_flying (now : Nat) {t : Turn} (flying : t.state.flights.live ≠ [])
    (up : t.state.lifecycle.isUp → t.state.worker.isSome) : t.andThen (dispatch now) = t := by
  rcases dispatch_cases now t.state up with ⟨-, heq⟩ | ⟨-, idle, -⟩ | ⟨w, job, rest, -, idle, -⟩
  · simp [Turn.andThen, heq]
  · exact absurd idle flying
  · exact absurd idle flying

/-- A frame that does not answer the job in flight leaves it alone. -/
theorem receive_live_of_strange {incoming : Incoming}
    (strange : ∀ f ∈ e.flights.live, incoming.names? ≠ some f.job.id) :
    (receive incoming e).state.flights.live = e.flights.live := by
  rcases receive_cases incoming e with ⟨f, hf, named, -⟩ | ⟨-, _, _, _, _, -, -, heq⟩
  · exact absurd named (strange f hf)
  · rw [heq]

/-! ## Turns while a job is in flight -/

theorem Consistent.apart (h : e.Consistent) : (e.apart callers).Consistent := by
  refine ⟨?_, ?_, h.worker, h.startup, h.timer, h.vacant⟩
  · simpa [Engine.apart, InFlight.apart] using h.single
  · simpa [Engine.apart, InFlight.apart] using h.busy

theorem apart_live {f : Flight} (single : e.flights.live = [f]) :
    (e.apart callers).flights.live = [f.apart callers] := by
  simp [Engine.apart, InFlight.apart, single]

theorem submit_of_flying (now : Nat) (job : Job) (h : e.Consistent)
    (flying : e.flights.live ≠ []) :
    submit now job e =
      ⟨{ e.following job.request with queue := e.queue.push job },
        announce (e.documents.follow job.request).1⟩ := by
  have busy := h.busy_of_live flying
  rcases submit_cases now job e with ⟨rejects, -⟩ | ⟨-, heq⟩
  · rw [busy] at rejects
    cases rejects
  · -- The job waits behind the one in flight.
    rw [heq]
    exact andThen_dispatch_of_flying now flying h.up

/-! ## The turns in view -/

theorem idle_apart (e : Engine) : (e.apart callers).idle.apart callers = e.idle.apart callers := by
  simp [Turn.apart, Engine.apart, InFlight.apart_self]

theorem cancel_apart (id : JobId) :
    (cancel id (e.apart callers)).apart callers = (cancel id e).apart callers := by
  have queue : (e.apart callers).queue = e.queue := rfl
  have found := InFlight.find?_apart callers e.flights id
  unfold cancel
  rw [queue]
  split
  · simp [Turn.apart, Engine.apart, InFlight.apart_self]
  · have waiter : ((e.apart callers).flights.find? id).bind (·.job.waiter) =
        ((e.flights.find? id).bind (·.job.waiter)).filter (· ∉ callers) := by
      rw [show (e.apart callers).flights = e.flights.apart callers from rfl, found]
      cases e.flights.find? id <;> rfl
    have told := omitting_tell callers ((e.flights.find? id).bind (·.job.waiter))
      (.error .cancelled)
    rw [waiter, Turn.apart, told]
    simp [Turn.apart, Engine.apart, InFlight.cancel_apart]

theorem finish_live_apart (e : Engine) (outcome : Outcome) :
    omitting callers ((e.apart callers).flights.live.flatMap fun f =>
        finish f.job outcome) =
      omitting callers (e.flights.live.flatMap fun f => finish f.job outcome) :=
  omitting_finish_all callers e.flights.live (fun _ => outcome) fun _ => rfl

theorem restart_apart : (restart (e.apart callers)).apart callers = (restart e).apart callers := by
  simp only [Turn.apart, restart_state, restart_effects, omitting_append, finish_live_apart]
  rfl

theorem shutdown_apart (caller : Option Ticket) :
    (shutdown caller (e.apart callers)).apart callers = (shutdown caller e).apart callers := by
  simp only [Turn.apart, shutdown_state, shutdown_effects, omitting_append, finish_live_apart]
  rfl

theorem crash_apart (now : Nat) (reason : CloseReason) :
    (crash now reason (e.apart callers)).apart callers = (crash now reason e).apart callers := by
  simp only [Turn.apart, crash_state, crash_effects, omitting_append, finish_live_apart]
  rfl

/-- A frame that does not answer the job in flight reads nothing of it. -/
theorem receive_apart {incoming : Incoming}
    (strange : ∀ f ∈ e.flights.live, incoming.names? ≠ some f.job.id) :
    (receive incoming (e.apart callers)).apart callers = (receive incoming e).apart callers := by
  cases hnames : incoming.names? with
  | none =>
    rw [receive_of_unknown (by simp [hnames]), receive_of_unknown (by simp [hnames])]
    exact idle_apart callers e
  | some id =>
    have landed : ∀ f ∈ e.flights.live, f.job.id ≠ id := by
      intro f hf hid
      exact strange f hf (by rw [hnames, hid])
    have landed' : ∀ f ∈ (e.apart callers).flights.live, f.job.id ≠ id := by
      intro f hf
      obtain ⟨g, hg, rfl⟩ := List.mem_map.1 hf
      exact landed g hg
    cases found : e.flights.abandoned.find? (·.1 = id) with
    | none =>
      have unknown : e.flights.knows id = false := by
        simp only [InFlight.knows, Bool.or_eq_false_iff, List.any_eq_false, decide_eq_true_eq]
        exact ⟨landed, by simpa using found⟩
      have unknown' : (e.apart callers).flights.knows id = false := by
        rw [← unknown]
        exact InFlight.knows_apart callers e.flights id
      rw [receive_of_unknown (by simpa [hnames] using unknown'),
        receive_of_unknown (by simpa [hnames] using unknown)]
      exact idle_apart callers e
    | some entry =>
      rw [receive_of_remembered hnames landed found, receive_of_remembered hnames landed' found]
      simp [Turn.apart, heeding, Engine.apart, InFlight.apart, Flight.apart_self]

section Flying

variable {f : Flight} (h : e.Consistent) (single : e.flights.live = [f])

include h single

theorem submit_apart (now : Nat) (job : Job) :
    (submit now job (e.apart callers)).apart callers = (submit now job e).apart callers := by
  have flying : e.flights.live ≠ [] := by simp [single]
  have flying' : (e.apart callers).flights.live ≠ [] := by simp [apart_live callers single]
  rw [submit_of_flying now job h flying, submit_of_flying now job (h.apart callers) flying']
  simp [Turn.apart, Engine.apart, following, InFlight.apart_self]

/-- A frame that answers the job in flight retires it, and then the two engines are one. Any other
    frame leaves it in flight, and nothing is dispatched. -/
theorem onFrame_apart (now : Nat) (incoming : Incoming) :
    (onFrame now incoming (e.apart callers)).apart callers =
      (onFrame now incoming e).apart callers := by
  have single' := apart_live callers single
  by_cases named : incoming.names? = some f.job.id
  · have retired := omitting_finish callers f (incoming.verdict f.job.kind)
    rw [onFrame, onFrame, receive_of_flying single named, receive_of_flying single' named]
    apply Turn.andThen_apart
    · simp only [omitting_append]
      exact congrArg (_ ++ ·) retired
    · rfl
  · have strange : ∀ g ∈ e.flights.live, incoming.names? ≠ some g.job.id := by
      simpa [single] using named
    have strange' : ∀ g ∈ (e.apart callers).flights.live, incoming.names? ≠ some g.job.id := by
      rw [single', List.forall_mem_singleton]
      exact named
    have still := receive_live_of_strange strange
    have still' := receive_live_of_strange strange'
    rw [onFrame, onFrame,
      andThen_dispatch_of_flying now (by rw [still, single]; simp)
        (receive_unsettled incoming h).up,
      andThen_dispatch_of_flying now (by rw [still', single']; simp)
        (receive_unsettled incoming (h.apart callers)).up]
    exact receive_apart callers strange

/-- A job whose time is up is retired and remembered, whoever waits on it. -/
theorem onDeadline_apart (now : Nat) :
    (onDeadline now (e.apart callers)).apart callers = (onDeadline now e).apart callers := by
  have single' := apart_live callers single
  rw [onDeadline_eq, onDeadline_eq, single, single']
  cases due : f.isDue now with
  | true =>
    -- Nothing is in flight any more, and the memory of a job says nothing of its caller.
    have due' : (f.apart callers).isDue now = true := due
    have retired := omitting_finish callers f (.error (.timeout f.job.id (f.elapsed now)))
    apply Turn.andThen_apart
    · simp only [List.filter_singleton, due, due', cond_true, List.flatMap_singleton]
      exact retired
    · simp only [expired, InFlight.expire, single, single', List.filter_singleton, due, due',
        cond_true]
      rfl
  | false =>
    have due' : (f.apart callers).isDue now = false := due
    have still : (e.expired now).flights.live = [f] := by simp [expired_live, single, due]
    have still' : ((e.apart callers).expired now).flights.live = [f.apart callers] := by
      simp [expired_live, single', due']
    rw [andThen_dispatch_of_flying now (by simp [still']) h.up,
      andThen_dispatch_of_flying now (by simp [still]) h.up]
    simp [Turn.apart, expired, InFlight.expire, single, due, due', Engine.apart, InFlight.apart,
      Flight.apart_self]

end Flying

/-- **A turn does not depend on who waits on the job in flight.** -/
theorem step_apart (h : e.Consistent) (now : Nat) (input : Input) :
    ((e.apart callers).step now input).apart callers = (e.step now input).apart callers := by
  rcases h.live_cases with landed | ⟨f, single⟩
  · rw [apart_of_landed callers landed]
  · -- While a job is in flight the worker is busy, and neither a start nor a timer is pending.
    have busy := h.busy_of_live (by simp [single])
    have held : e.worker.isSome := h.worker.2 (Or.inr busy)
    obtain ⟨noStart, noTimer⟩ := h.no_start_of_worker held
    have alive : e.hasEnded = false := by simp [hasEnded, busy]
    have alive' : (e.apart callers).hasEnded = false := alive
    have idle := idle_apart callers e
    have worker : (e.apart callers).worker = e.worker := rfl
    have noStart' : (e.apart callers).startup = none := noStart
    have noTimer' : (e.apart callers).restartAt = none := noTimer
    unfold step
    rw [if_neg (by simp [alive']), if_neg (by simp [alive])]
    cases input with
    | command c =>
      cases c with
      | submit job => exact submit_apart callers h single now job
      | cancel id => exact cancel_apart callers id
      | restart => exact restart_apart callers
      | snapshot caller =>
        simp [onCommand, Turn.apart, Engine.apart, InFlight.apart_self]
      | shutdown caller => exact shutdown_apart callers caller
    | frame w incoming =>
      by_cases current : e.worker = some w
      · simpa only [worker, if_pos current] using onFrame_apart callers h single now incoming
      · simpa only [worker, if_neg current] using idle
    | closed w reason =>
      by_cases current : e.worker = some w
      · simpa only [worker, if_pos current] using crash_apart callers now reason
      · simpa only [worker, if_neg current] using idle
    | deadline => exact onDeadline_apart callers h single now
    | restartDue => simpa only [noTimer, noTimer'] using idle
    | started start result => simpa [noStart, noStart'] using idle

/-- The same for whatever happens around the engine. -/
theorem answer_apart (h : e.Consistent) (o : Occasion) :
    ((e.apart callers).answer o).apart callers = (e.answer o).apart callers := by
  cases o with
  | draw => simp [answer, issueId, Turn.apart, Engine.apart, InFlight.apart_self]
  | input now input => exact step_apart callers h now input

/-- **A cancelled flight goes on.** To all but its caller, the cancellation of a job in flight is
    as if it had not been asked for. -/
theorem step_cancel_apart (h : e.Consistent) {f : Flight} (flying : f ∈ e.flights.live)
    (dequeued : ∀ job ∈ e.queue.jobs, job.id ≠ f.job.id)
    (heeded : ∀ t ∈ f.job.waiter, t ∈ callers) (now : Nat) :
    (e.step now (.command (.cancel f.job.id))).apart callers = e.idle.apart callers := by
  have single := h.live_eq_of_mem flying
  have busy := h.busy_of_live (List.ne_nil_of_mem flying)
  have turn : e.step now (.command (.cancel f.job.id)) = cancel f.job.id e := by
    simp [step, hasEnded, busy, onCommand]
  rw [turn]
  rcases cancel_cases f.job.id e with ⟨before, job, after, hq, hid, -⟩ | ⟨-, heq⟩
  · exact absurd hid (dequeued job (by simp [hq]))
  · have found : e.flights.find? f.job.id = some f := by simp [InFlight.find?, single]
    have nobody : f.job.waiter.filter (· ∉ callers) = none := by simpa using heeded
    have told := omitting_tell callers f.job.waiter (.error .cancelled)
    rw [nobody] at told
    have flight : Flight.apart callers { f with cancelled := true, job := f.job.told } =
        f.apart callers := by
      simp only [Flight.apart, Job.told, nobody, Option.filter_none]
    have state : Engine.apart callers { e with flights := e.flights.cancel f.job.id } =
        e.apart callers := by
      simp [Engine.apart, InFlight.apart, InFlight.cancel, single, flight]
    rw [heq, found, Turn.apart, Turn.apart, state]
    exact congrArg (Turn.mk _) told.symm

end Engine

/-! ## Callers that hear and callers that leave -/

/-- What happens in a run: an occasion of the engine, or a caller that stops waiting. -/
inductive Happening where
  | occasion (o : Occasion)
  | leave (caller : Ticket)

/-- What the engine notices of it. -/
def Happening.occasion? : Happening → Option Occasion
  | .occasion o => some o
  | .leave _ => none

/-- What callers hear of the effects when some are gone. -/
def audible (gone : List Ticket) (effects : List Effect) : List (Ticket × Outcome) :=
  (effects.filterMap (·.told?)).filter (·.1 ∉ gone)

/-- A run, who has stopped waiting, and who heard what. -/
structure Audience where
  history : History
  gone : List Ticket := []
  heard : List (Ticket × Outcome) := []

namespace Audience

/-- One more thing happens. -/
def meet (a : Audience) : Happening → Audience
  | .occasion o =>
    { a with
      history := a.history.extend o
      heard := a.heard ++ audible a.gone (a.history.engine.answer o).effects }
  | .leave caller => { a with gone := a.gone ++ [caller] }

/-- The audience of a run. -/
def run (policy : RestartPolicy) (xs : List Happening) : Audience :=
  xs.foldl meet { history := .boot policy }

theorem run_concat (policy : RestartPolicy) (xs : List Happening) (x : Happening) :
    run policy (xs ++ [x]) = (run policy xs).meet x :=
  List.foldl_append

/-- The engine does not notice who leaves. -/
theorem history_run (policy : RestartPolicy) (xs : List Happening) :
    (run policy xs).history = History.run policy (xs.filterMap (·.occasion?)) := by
  induction xs using List.reverseRecOn with
  | nil => rfl
  | append_singleton xs x ih =>
    rw [run_concat, List.filterMap_append]
    cases x with
    | occasion o => 
      change (run policy xs).history.extend o = _
      rw [ih, ← History.run_concat]
      rfl
    | leave caller => simpa [meet, Happening.occasion?] using ih

end Audience

/-! ## Two runs side by side -/

/-- The first run is the second one in which some callers also cancel their jobs in flight, and in
    which others leave early or stay. The first list has the callers that cancelled, and the
    second one those that left in one run only. -/
inductive GivesUp (policy : RestartPolicy) :
    List Happening → List Happening → List Ticket → List Ticket → Prop where
  | start : GivesUp policy [] [] [] []
  | both {xs ys cancelled left} (x : Happening) (so : GivesUp policy xs ys cancelled left) :
      GivesUp policy (xs ++ [x]) (ys ++ [x]) cancelled left
  | cancel {xs ys cancelled left} (now : Nat) {f : Flight}
      (so : GivesUp policy xs ys cancelled left)
      (flying : f ∈ (Audience.run policy xs).history.engine.flights.live) :
      GivesUp policy (xs ++ [.occasion (.input now (.command (.cancel f.job.id)))]) ys
        (cancelled ++ f.job.waiter.toList) left
  | leaves {xs ys cancelled left} (caller : Ticket) (so : GivesUp policy xs ys cancelled left) :
      GivesUp policy (xs ++ [.leave caller]) ys cancelled (left ++ [caller])
  | stays {xs ys cancelled left} (caller : Ticket) (so : GivesUp policy xs ys cancelled left) :
      GivesUp policy xs (ys ++ [.leave caller]) cancelled (left ++ [caller])

/-- What happens in both runs keeps them so related. -/
theorem GivesUp.append {policy : RestartPolicy} {xs ys : List Happening}
    {cancelled left : List Ticket} (so : GivesUp policy xs ys cancelled left)
    (zs : List Happening) : GivesUp policy (xs ++ zs) (ys ++ zs) cancelled left := by
  induction zs using List.reverseRecOn with
  | nil => simpa using so
  | append_singleton zs z ih =>
    rw [← List.append_assoc, ← List.append_assoc]
    exact ih.both z

/-- Two runs are the same to all but the given callers. -/
structure Alike (cancelled left : List Ticket) (a b : Audience) : Prop where
  engine : a.history.engine.apart cancelled = b.history.engine.apart cancelled
  effects : omitting cancelled a.history.effects = omitting cancelled b.history.effects
  gone : ∀ t ∉ left, t ∈ a.gone ↔ t ∈ b.gone
  heard : a.heard.filter (·.1 ∉ cancelled ++ left) = b.heard.filter (·.1 ∉ cancelled ++ left)

/-- What the others hear depends on what the others are told, and on who of them is gone. -/
theorem audible_filter {cancelled left gone gone' : List Ticket} {effects effects' : List Effect}
    (told : omitting cancelled effects = omitting cancelled effects')
    (same : ∀ t ∉ left, t ∈ gone ↔ t ∈ gone') :
    (audible gone effects).filter (·.1 ∉ cancelled ++ left) =
      (audible gone' effects').filter (·.1 ∉ cancelled ++ left) := by
  have others : ∀ effects, (effects.filterMap Effect.told?).filter (·.1 ∉ cancelled) =
      (omitting cancelled effects).filterMap Effect.told? := by
    intro effects
    rw [omitting, List.filter_filterMap, List.filterMap_filter]
    congr 1
    funext x
    cases htold : x.told? with
    | none => simp
    | some told =>
      by_cases h : told.1 ∈ cancelled <;> simp [Effect.tells, htold, h, Option.filter_some]
  -- The cancelled ones are left out of the effects, and the others that left of the hearing.
  have split : ∀ gone effects, (audible gone effects).filter (·.1 ∉ cancelled ++ left) =
      ((omitting cancelled effects).filterMap Effect.told?).filter
        fun told => told.1 ∉ gone ∧ told.1 ∉ left := by
    intro gone effects
    rw [← others, audible, List.filter_filter, List.filter_filter]
    congr 1
    funext told
    simp only [List.mem_append]
    grind
  rw [split, split, told]
  congr 1
  funext told
  by_cases h : told.1 ∈ left
  · simp [h]
  · simp [h, same]

namespace Alike

variable {cancelled left : List Ticket} {a b : Audience}

/-- The more callers are left out of account, the more alike are two runs. -/
theorem widen (so : Alike cancelled left a b) (more gone : List Ticket) :
    Alike (cancelled ++ more) (left ++ gone) a b := by
  refine ⟨?_, ?_, ?_, ?_⟩
  · rw [← Engine.apart_apart, ← Engine.apart_apart, so.engine]
  · rw [← omitting_omitting, ← omitting_omitting, so.effects]
  · intro t ht
    exact so.gone t fun h => ht (List.mem_append_left _ h)
  · have split : ∀ heard : List (Ticket × Outcome),
        heard.filter (·.1 ∉ cancelled ++ more ++ (left ++ gone)) =
          (heard.filter (·.1 ∉ cancelled ++ left)).filter (·.1 ∉ more ++ gone) := by
      intro heard
      rw [List.filter_filter]
      congr 1
      funext x
      simp only [List.mem_append]
      grind
    rw [split, split, so.heard]

/-- A turn of the first run that is nothing to the others keeps the runs alike. -/
theorem extend (so : Alike cancelled left a b) {o : Occasion}
    (turn : (a.history.engine.answer o).apart cancelled = b.history.engine.idle.apart cancelled) :
    Alike cancelled left (a.meet (.occasion o)) b := by
  obtain ⟨state, effects⟩ := Turn.mk.inj turn
  have silent := audible_filter effects so.gone
  refine ⟨state, ?_, so.gone, ?_⟩
  · rw [Audience.meet, History.effects_extend, omitting_append, so.effects, effects]
    exact List.append_nil _
  · rw [Audience.meet, List.filter_append, so.heard, silent]
    exact List.append_nil _

/-- The same occasion keeps two runs alike. -/
theorem occasion (so : Alike cancelled left a b) (o : Occasion)
    (consistent : a.history.engine.Consistent) (consistent' : b.history.engine.Consistent) :
    Alike cancelled left (a.meet (.occasion o)) (b.meet (.occasion o)) := by
  have turn : (a.history.engine.answer o).apart cancelled =
      (b.history.engine.answer o).apart cancelled := by
    rw [← Engine.answer_apart cancelled consistent, so.engine,
      Engine.answer_apart cancelled consistent']
  obtain ⟨state, effects⟩ := Turn.mk.inj turn
  refine ⟨state, ?_, so.gone, ?_⟩
  · simp only [Audience.meet, History.effects_extend, omitting_append, so.effects, effects]
  · simp only [Audience.meet, List.filter_append, so.heard, audible_filter effects so.gone]

/-- A caller that leaves both runs keeps them alike. -/
theorem leave (so : Alike cancelled left a b) (caller : Ticket) :
    Alike cancelled left (a.meet (.leave caller)) (b.meet (.leave caller)) := by
  refine ⟨so.engine, so.effects, fun t ht => ?_, so.heard⟩
  simp [Audience.meet, so.gone t ht]

/-- One that leaves only one of them is left out of account. -/
theorem leaves (so : Alike cancelled left a b) (caller : Ticket) :
    Alike cancelled (left ++ [caller]) (a.meet (.leave caller)) b := by
  have so' := so.widen [] [caller]
  rw [List.append_nil] at so'
  refine ⟨so.engine, so.effects, fun t ht => ?_, so'.heard⟩
  simp only [Audience.meet, ← so'.gone t ht, List.mem_append, or_iff_left_iff_imp]
  exact fun h => absurd (List.mem_append_right _ h) ht

theorem symm (so : Alike cancelled left a b) : Alike cancelled left b a :=
  ⟨so.engine.symm, so.effects.symm, fun t ht => (so.gone t ht).symm, so.heard.symm⟩

end Alike

namespace History

variable {policy : RestartPolicy}

/-- In a lawful run no job is in flight and in the queue. -/
theorem dequeued_of_flying {os : List Occasion} (lawful : Lawful policy os) {f : Flight}
    (flying : f ∈ (run policy os).engine.flights.live) :
    ∀ job ∈ (run policy os).engine.queue.jobs, job.id ≠ f.job.id := by
  intro job hjob hid
  have balanced := run_balanced policy os (.report f.job.id)
  have once := (lawful_orderly lawful).countP_le (.report f.job.id)
  have waits : 0 < (run policy os).engine.queue.jobs.countP (Job.owes (.report f.job.id)) :=
    List.countP_pos_iff.2 ⟨job, hjob, by simp [Job.owes, hid]⟩
  have flies : 0 < (run policy os).engine.flights.live.countP
      fun f' => Job.owes (.report f.job.id) f'.job :=
    List.countP_pos_iff.2 ⟨f, flying, by simp [Job.owes]⟩
  rw [Engine.owes] at balanced
  omega

/-- **Two runs in which callers give up or do not are alike to the others.** -/
theorem givesUp_alike {xs ys : List Happening} {cancelled left : List Ticket}
    (so : GivesUp policy xs ys cancelled left)
    (lawful : Lawful policy (xs.filterMap (·.occasion?))) :
    Alike cancelled left (Audience.run policy xs) (Audience.run policy ys) := by
  have consistent : ∀ xs, (Audience.run policy xs).history.engine.Consistent := by
    intro xs
    rw [Audience.history_run]
    exact run_consistent policy _
  -- Induction on how the two runs came about: every step extends one of them, or both.
  induction so with
  | start => exact ⟨rfl, rfl, fun _ _ => Iff.rfl, rfl⟩
  | both x so ih =>
    rw [List.filterMap_append] at lawful
    have alike := ih lawful.take
    rw [Audience.run_concat, Audience.run_concat]
    cases x with
    | occasion o => exact alike.occasion o (consistent _) (consistent _)
    | leave caller => exact alike.leave caller
  | @cancel xs ys cancelled left now f so flying ih =>
    rw [List.filterMap_append] at lawful
    have alike := (ih lawful.take).widen f.job.waiter.toList []
    rw [List.append_nil] at alike
    rw [Audience.run_concat]
    -- A job in flight is not queued too, so the cancellation is the flight's.
    have history := Audience.history_run policy xs
    have dequeued := dequeued_of_flying lawful.take (history ▸ flying)
    rw [← history] at dequeued
    have turn := Engine.step_cancel_apart (cancelled ++ f.job.waiter.toList) (consistent xs) flying
      dequeued (fun t ht => by simp [Option.mem_def.1 ht]) now
    apply alike.extend
    rw [Engine.answer, turn, Turn.apart, Turn.apart]
    exact congrArg (Turn.mk · _) alike.engine
  | leaves caller so ih =>
    rw [List.filterMap_append] at lawful
    rw [Audience.run_concat]
    exact (ih lawful.take).leaves caller
  | stays caller so ih =>
    rw [Audience.run_concat]
    exact ((ih lawful).symm.leaves caller).symm

/-- **Giving up is invisible to everyone else.** Take a lawful run, and a second one without some
    of its cancellations, each of a job in flight, in which other callers leave early or stay. Both
    do the same in the same order: they send the same to the same workers and tell the editor
    the same, and only what the callers that cancelled are told differs. Both are left in the same
    state. Of the job in flight they may disagree on whether it was cancelled, and on whether its
    caller still waits, but not on its deadline. And all others hear the same outcomes. As two runs
    so related are extended step by step, all of this holds after every step. -/
theorem giving_up_is_invisible {xs ys : List Happening} {cancelled left : List Ticket}
    (lawful : Lawful policy (xs.filterMap (·.occasion?)))
    (so : GivesUp policy xs ys cancelled left) :
    let first := Audience.run policy xs
    let second := Audience.run policy ys
    omitting cancelled first.history.effects = omitting cancelled second.history.effects ∧
    first.history.engine =
      { second.history.engine with flights := first.history.engine.flights } ∧
    first.history.engine.flights.abandoned = second.history.engine.flights.abandoned ∧
    first.history.engine.flights.nextDeadline? = second.history.engine.flights.nextDeadline? ∧
    first.history.engine.flights.live.map (Flight.apart cancelled) =
      second.history.engine.flights.live.map (Flight.apart cancelled) ∧
    first.heard.filter (·.1 ∉ cancelled ++ left) =
      second.heard.filter (·.1 ∉ cancelled ++ left) := by
  intro first second
  have alike : Alike cancelled left first second := givesUp_alike so lawful
  have flights : first.history.engine.flights.apart cancelled =
      second.history.engine.flights.apart cancelled := congrArg Engine.flights alike.engine
  have abandoned := congrArg (fun t : InFlight => t.abandoned) flights
  refine ⟨alike.effects, ?_, abandoned, ?_, ?_, alike.heard⟩
  · exact congrArg (fun e : Engine => { e with flights := first.history.engine.flights })
      alike.engine
  · rw [← InFlight.nextDeadline?_apart cancelled, flights, InFlight.nextDeadline?_apart]
  · exact congrArg (fun t : InFlight => t.live) flights

/-- Three jobs are submitted, and the first of them is in flight. -/
def threeWait : List Happening :=
  [.occasion .draw, .occasion .draw, .occasion .draw,
    .occasion (.input 0 (.started 0 (.ok ⟨0, none⟩))),
    .occasion (.input 1 (.command (.submit { id := ⟨1⟩, request := .version, waiter := some 5 }))),
    .occasion (.input 2 (.command (.submit { id := ⟨2⟩, request := .version, waiter := some 6 }))),
    .occasion (.input 3 (.command (.submit { id := ⟨3⟩, request := .version, waiter := some 7 })))]

/-- The first caller cancels its job, and the second one stops waiting. -/
def twoGiveUp : List Happening :=
  [.occasion (.input 4 (.command (.cancel ⟨1⟩))), .leave 6]

/-- All jobs are answered. -/
def threeAnswers : List Happening :=
  [.occasion (.input 5 (.frame 0 (.response ⟨1⟩ (.ok .null)))),
    .occasion (.input 6 (.frame 0 (.response ⟨2⟩ (.ok .null)))),
    .occasion (.input 7 (.frame 0 (.response ⟨3⟩ (.ok .null))))]

theorem third_hears_the_same :
    (Lawful {} ((threeWait ++ twoGiveUp ++ threeAnswers).filterMap (·.occasion?)) ∧
      GivesUp {} (threeWait ++ twoGiveUp ++ threeAnswers) (threeWait ++ threeAnswers) [5] [6]) ∧
    (Audience.run {} (threeWait ++ twoGiveUp ++ threeAnswers)).heard =
      [(5, .error .cancelled), (7, .ok .null)] ∧
    (Audience.run {} (threeWait ++ threeAnswers)).heard =
      [(5, .ok .null), (6, .ok .null), (7, .ok .null)] ∧
    omitting [5] (Audience.run {} (threeWait ++ twoGiveUp ++ threeAnswers)).history.effects =
      omitting [5] (Audience.run {} (threeWait ++ threeAnswers)).history.effects := by
  have lawful : Lawful {} ((threeWait ++ twoGiveUp ++ threeAnswers).filterMap (·.occasion?)) := by
    decide
  have waiting : GivesUp {} threeWait threeWait [] [] := GivesUp.start.append threeWait
  have flying : (⟨{ id := ⟨1⟩, request := .version, waiter := some 5 }, 1, none, false⟩ : Flight) ∈
      (Audience.run {} threeWait).history.engine.flights.live := by decide
  have so : GivesUp {} (threeWait ++ twoGiveUp ++ threeAnswers) (threeWait ++ threeAnswers)
      [5] [6] :=
    ((waiting.cancel 4 flying).leaves 6).append threeAnswers
  exact ⟨⟨lawful, so⟩, rfl, rfl, (giving_up_is_invisible lawful so).1⟩

end History

end WorkerBridge
