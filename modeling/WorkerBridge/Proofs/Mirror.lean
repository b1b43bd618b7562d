/-
  WorkerBridge.Proofs.Mirror

  The worker's documents match the open ones.

  A worker knows what it was told: its documents are the result of all edits that
  were handed to it, and the edits that still wait complete them. The store may
  run ahead of the queue, the queue may hold texts that are out of date, and a
  replay goes ahead of them; what holds through all of it is that the last edit of
  each document that waits is what the store says (`Agrees`). That is why a
  replay, followed by whatever the queue was left with, ends in the store again.
-/
import WorkerBridge.Proofs.TextMap
import WorkerBridge.Proofs.Sends

namespace WorkerBridge

/-! ## Edits -/

/-- A change to the documents: which one, and its text, or none if it is closed. -/
abbrev Edit := String × Option String

/-- The change that a request makes to the documents of a worker. -/
def Request.edit? : Request → Option Edit
  | .addUri uri source => some (uri, some source)
  | .remUri uri => some (uri, none)
  | _ => none

namespace TextMap

/-- The texts after one more edit. -/
def edit (m : TextMap String) : Edit → TextMap String
  | (uri, some text) => insert uri text m
  | (uri, none) => erase uri m

theorem find?_edit (uri : String) (m : TextMap String) (change : Edit) :
    find? uri (m.edit change) = if change.1 = uri then change.2 else find? uri m := by
  obtain ⟨changed, text⟩ := change
  cases text with
  | some text => exact find?_insert uri changed text m
  | none => exact find?_erase uri changed m

theorem Sorted.edit {m : TextMap String} (h : Sorted m) (change : Edit) :
    Sorted (m.edit change) := by
  obtain ⟨changed, text⟩ := change
  cases text with
  | some text => exact h.insert changed text
  | none => exact h.erase changed

theorem Sorted.foldl_edit {m : TextMap String} (h : Sorted m) (edits : List Edit) :
    Sorted (edits.foldl TextMap.edit m) := by
  induction edits generalizing m with
  | nil => exact h
  | cons change edits ih => exact ih (h.edit change)

end TextMap

/-- The last edit of a document, if there is any. -/
def lastEdit? (uri : String) (edits : List Edit) : Option (Option String) :=
  TextMap.find? uri edits.reverse

theorem lastEdit?_append (uri : String) (edits edits' : List Edit) :
    lastEdit? uri (edits ++ edits') = (lastEdit? uri edits').or (lastEdit? uri edits) := by
  rw [lastEdit?, List.reverse_append, TextMap.find?, List.find?_append, Option.map_or]
  rfl

theorem lastEdit?_singleton (uri : String) (change : Edit) :
    lastEdit? uri [change] = if change.1 = uri then some change.2 else none :=
  TextMap.find?_cons uri change.1 change.2 []

/-- Only the last edit of a document counts. -/
theorem find?_foldl_edit (uri : String) (edits : List Edit) (m : TextMap String) :
    TextMap.find? uri (edits.foldl TextMap.edit m) =
      (lastEdit? uri edits).getD (TextMap.find? uri m) := by
  induction edits generalizing m with
  | nil => rfl
  | cons change edits ih =>
    rw [List.foldl_cons, ih, TextMap.find?_edit, ← List.singleton_append, lastEdit?_append,
      lastEdit?_singleton]
    cases lastEdit? uri edits with
    | some text => rfl
    | none => split <;> rfl  -- no later edit, so this one counts

/-! ## Edits that agree with a map -/

/-- The last edit of each document is what the map says. -/
def Agrees (edits : List Edit) (m : TextMap String) : Prop :=
  ∀ uri text, lastEdit? uri edits = some text → text = TextMap.find? uri m

namespace Agrees

variable {edits : List Edit} {m : TextMap String}

theorem nil : Agrees [] m := by
  intro uri text h
  cases h

/-- What is done to the map and to the end of the edits alike keeps them in agreement. -/
theorem append (h : Agrees edits m) (more : List Edit) :
    Agrees (edits ++ more) (more.foldl TextMap.edit m) := by
  intro uri text hlast
  rw [find?_foldl_edit]
  rw [lastEdit?_append] at hlast
  cases hmore : lastEdit? uri more with
  | some text' =>
    rw [hmore] at hlast
    exact (Option.some.inj hlast).symm
  | none =>
    rw [hmore] at hlast
    exact h uri text hlast

/-- The first edits may go. -/
theorem drop {front : List Edit} (h : Agrees (front ++ edits) m) : Agrees edits m := by
  intro uri text hlast
  refine h uri text ?_
  rw [lastEdit?_append, hlast, Option.some_or]

theorem prepend {front : List Edit} (h : Agrees edits m) (hfront : Agrees front m) :
    Agrees (front ++ edits) m := by
  intro uri text hlast
  rw [lastEdit?_append] at hlast
  cases hedits : lastEdit? uri edits with
  | some text' =>
    rw [hedits] at hlast
    exact h uri text (hedits.trans hlast)
  | none =>
    rw [hedits] at hlast
    exact hfront uri text hlast

/-- Edits that agree with a map change nothing in it. -/
theorem foldl_edit_eq (h : Agrees edits m) (sorted : m.Sorted) :
    edits.foldl TextMap.edit m = m := by
  refine (sorted.foldl_edit edits).ext sorted fun uri => ?_
  rw [find?_foldl_edit]
  cases hlast : lastEdit? uri edits with
  | some text => exact h uri text hlast
  | none => rfl

end Agrees

/-- The edits that build a map. -/
def TextMap.edits (m : TextMap String) : List Edit :=
  m.map fun entry => (entry.1, some entry.2)

theorem TextMap.Sorted.foldl_edits {m : TextMap String} (h : m.Sorted) :
    m.edits.foldl TextMap.edit [] = m := by
  rw [edits, List.foldl_map]
  exact h.ofList_eq

theorem TextMap.Sorted.agrees_edits {m : TextMap String} (h : m.Sorted) : Agrees m.edits m := by
  intro uri text hlast
  have hfind := find?_foldl_edit uri m.edits []
  rw [h.foldl_edits, hlast] at hfind
  exact hfind.symm

/-! ## The texts of the open documents -/

/-- The texts of the open documents. -/
def Documents.texts (d : Documents) : TextMap String :=
  TextMap.mapValues (·.text) d.documents

theorem Documents.texts_follow (d : Documents) (r : Request) :
    (d.follow r).2.texts = r.edit?.toList.foldl TextMap.edit d.texts := by
  cases r with
  | addUri uri source => exact TextMap.mapValues_insert ..
  | remUri uri => exact TextMap.mapValues_erase ..
  | _ => rfl

theorem Documents.replay_edits (d : Documents) :
    d.replay.filterMap Request.edit? = d.texts.edits := by
  unfold replay texts TextMap.mapValues TextMap.edits
  split
  · next empty =>
    rw [List.isEmpty_iff.1 empty]
    rfl
  · rw [List.filterMap_append, List.filterMap_map, List.map_map]
    show d.documents.filterMap (fun entry => some (entry.1, some entry.2.text)) ++ [] = _
    rw [List.append_nil, List.filterMap_eq_map']
    rfl

theorem Documents.sorted_follow {d : Documents} (h : d.documents.Sorted) (r : Request) :
    (d.follow r).2.documents.Sorted := by
  cases r with
  | addUri uri source => exact h.insert ..
  | remUri uri => exact h.erase uri
  | _ => exact h

/-! ## What was sent and what waits -/

/-- The edits that still wait. -/
def Engine.queuedEdits (e : Engine) : List Edit :=
  e.queue.jobs.filterMap (·.request.edit?)

/-- The edit that a worker was handed. -/
def Sent.editTo? (w : WorkerId) (s : Sent) : Option Edit :=
  if s.worker = w then s.request.edit? else none

/-- The edits among the effects that a worker was handed, in order. -/
def editsTo (w : WorkerId) (effects : List Effect) : List Edit :=
  (sends effects).filterMap (Sent.editTo? w)

theorem editsTo_append (w : WorkerId) (xs ys : List Effect) :
    editsTo w (xs ++ ys) = editsTo w xs ++ editsTo w ys := by
  rw [editsTo, sends_append, List.filterMap_append]
  rfl

theorem editsTo_of_sends_eq_nil {effects : List Effect} (h : sends effects = []) (w : WorkerId) :
    editsTo w effects = [] := by
  rw [editsTo, h]
  rfl

namespace Engine

theorem filterMap_handed (w : WorkerId) (jobs : List Job) :
    (jobs.map (handed w)).filterMap (Sent.editTo? w) = jobs.filterMap (·.request.edit?) := by
  rw [List.filterMap_map]
  congr 1
  funext j
  exact if_pos rfl

/-- A dispatch moves an edit from the queue to the worker, and drops none. -/
theorem dispatch_edits (now : Nat) {e : Engine} (up : e.lifecycle.isUp → e.worker.isSome)
    {w : WorkerId} (current : e.worker = some w) :
    editsTo w (dispatch now e).effects ++ (dispatch now e).state.queuedEdits = e.queuedEdits := by
  have hands := congrArg (List.filterMap (Sent.editTo? w)) (dispatch_hands now up current)
  rwa [List.filterMap_append, filterMap_handed, filterMap_handed] at hands

/-! ## The invariant -/

/-- What the store, the queue and the edits that each worker was handed have to do with each
    other. -/
structure Faithful (sent : WorkerId → List Edit) (e : Engine) : Prop where
  sorted : e.documents.documents.Sorted
  /-- The last edit of a document that waits is what the store says. -/
  queue : Agrees e.queuedEdits e.documents.texts
  /-- What the worker was handed and what waits make up the store. -/
  worker : ∀ w, e.worker = some w →
    (sent w ++ e.queuedEdits).foldl TextMap.edit [] = e.documents.texts
  /-- If the worker that is starting gets no replay, what waits makes up the store by itself. -/
  first : e.lifecycle = .starting → e.replayOnReady = false →
    e.queuedEdits.foldl TextMap.edit [] = e.documents.texts
  /-- After a crash there will be a replay. -/
  crashed : e.lifecycle = .crashed → e.replayOnReady = true

/-- The edits that each worker was handed, once some effects were carried out. -/
def sentAfter (sent : WorkerId → List Edit) (effects : List Effect) : WorkerId → List Edit :=
  fun w => sent w ++ editsTo w effects

theorem sentAfter_append (sent : WorkerId → List Edit) (xs ys : List Effect) :
    sentAfter sent (xs ++ ys) = sentAfter (sentAfter sent xs) ys := by
  funext w
  rw [sentAfter, editsTo_append, ← List.append_assoc]
  rfl

theorem sentAfter_of_sends_eq_nil (sent : WorkerId → List Edit) {effects : List Effect}
    (silent : sends effects = []) : sentAfter sent effects = sent := by
  funext w
  rw [sentAfter, editsTo_of_sends_eq_nil silent, List.append_nil]

variable {sent : WorkerId → List Edit} {e : Engine} {now : Nat}

/-! ## Turns -/

/-- A turn that hands over nothing keeps the invariant if its state does. -/
theorem Faithful.silent {t : Turn} (h : Faithful sent t.state) (silent : sends t.effects = []) :
    Faithful (sentAfter sent t.effects) t.state := by
  rwa [sentAfter_of_sends_eq_nil sent silent]

theorem dispatch_faithful (h : Faithful sent e) (up : e.lifecycle.isUp → e.worker.isSome) :
    Faithful (sentAfter sent (dispatch now e).effects) (dispatch now e).state := by
  rcases dispatch_cases now e up with
    ⟨-, heq⟩ | ⟨-, -, -, heq⟩ | ⟨w, job, rest, -, -, hw, -, hstate, -⟩
  · rw [heq]
    exact h.silent rfl
  · rw [heq]
    refine .silent ?_ (sends_setState ..)
    rw [setState_state]
    exact ⟨h.sorted, h.queue, h.worker, by simp, by simp⟩
  · -- The job that goes may be no edit, but the equation holds of both.
    have moved := dispatch_edits now up hw
    have documents : (e.launch now job rest).documents.documents = e.documents.documents :=
      documentsAt_documents e job
    have texts : (e.launch now job rest).documents.texts = e.documents.texts :=
      congrArg (TextMap.mapValues _) documents
    rw [hstate] at moved ⊢
    refine ⟨documents ▸ h.sorted, ?_, ?_, by simp [launch], by simp [launch]⟩
    · rw [texts]
      exact Agrees.drop (moved ▸ h.queue)
    · intro v hv
      cases hw.symm.trans hv
      rw [texts, sentAfter, List.append_assoc, moved]
      exact h.worker w hw

/-- A turn that ends in a dispatch keeps the invariant if it holds before the dispatch. -/
theorem Faithful.thenDispatch {t : Turn} (h : Faithful sent t.state)
    (silent : sends t.effects = [])
    (up : t.state.lifecycle.isUp → t.state.worker.isSome) :
    Faithful (sentAfter sent (t.andThen (dispatch now)).effects)
      (t.andThen (dispatch now)).state := by
  rw [Turn.andThen_effects, sentAfter_append]
  exact dispatch_faithful (h.silent silent) up

theorem submit_faithful (job : Job) (h : Faithful sent e) (consistent : e.Consistent) :
    Faithful (sentAfter sent (submit now job e).effects) (submit now job e).state := by
  have texts := e.documents.texts_follow job.request
  have sorted := Documents.sorted_follow h.sorted job.request
  rcases submit_cases now job e with ⟨rejects, heq⟩ | ⟨-, heq⟩
  · rw [heq]
    refine .silent ?_ ?_
    · -- The store runs ahead of a queue that is empty and stays so.
      have closed := (rejectsJobs_iff _).1 rejects
      have down : e.worker = none := by
        apply consistent.no_worker <;> rcases closed with closed | closed <;> simp [closed]
      have waiting : e.queuedEdits = [] := by
        rw [queuedEdits, consistent.vacant (Or.inr closed)]
        rfl
      refine ⟨sorted, ?_, ?_, ?_, ?_⟩
      · exact waiting ▸ Agrees.nil
      · intro w hw
        cases down.symm.trans hw
      · intro starting
        rcases closed with closed | closed <;> cases closed.symm.trans starting
      · intro crashed
        rcases closed with closed | closed <;> cases closed.symm.trans crashed
    · rw [sends_append, sends_announce, sends_finish]
      rfl
  · rw [heq]
    refine .thenDispatch ?_ (sends_announce _) consistent.up
    have queued : queuedEdits { e.following job.request with queue := e.queue.push job } =
        e.queuedEdits ++ job.request.edit?.toList := by
      rw [queuedEdits, Queue.push, List.filterMap_append]
      cases hedit : job.request.edit? <;> simp [hedit, queuedEdits]
    refine ⟨sorted, ?_, ?_, ?_, h.crashed⟩
    · rw [queued]
      exact texts ▸ h.queue.append _
    · intro w hw
      rw [queued, ← List.append_assoc, List.foldl_append, h.worker w hw]
      exact texts.symm
    · intro starting unarmed
      rw [queued, List.foldl_append, h.first starting unarmed]
      exact texts.symm

theorem cancel_faithful (id : JobId) (h : Faithful sent e)
    (spared : ∀ j ∈ e.queue.jobs, j.id = id → j.request.edit? = none) :
    Faithful (sentAfter sent (cancel id e).effects) (cancel id e).state := by
  refine .silent ?_ (sends_cancel id e)
  rcases cancel_cases id e with ⟨before, job, after, hq, hid, heq⟩ | ⟨-, heq⟩
  · -- The job that goes is no edit, so the edits that wait are the same.
    have noEdit : job.request.edit? = none := spared job (by simp [hq]) hid
    have same : queuedEdits { e with queue := ⟨before ++ after⟩ } = e.queuedEdits := by
      rw [queuedEdits, queuedEdits, hq, List.filterMap_append, List.filterMap_append,
        List.filterMap_cons, noEdit]
    rw [heq]
    refine ⟨h.sorted, ?_, ?_, ?_, h.crashed⟩
    · rw [same]
      exact h.queue
    · rw [same]
      exact h.worker
    · rw [same]
      exact h.first
  · rw [heq]
    exact ⟨h.sorted, h.queue, h.worker, h.first, h.crashed⟩

theorem receive_faithful (incoming : Incoming) (h : Faithful sent e) :
    Faithful sent (receive incoming e).state := by
  obtain ⟨flights, documents, failedRestarts, same, hstate⟩ := receive_frame incoming e
  have texts : documents.texts = e.documents.texts := congrArg (TextMap.mapValues _) same
  rw [hstate]
  refine ⟨same ▸ h.sorted, ?_, ?_, ?_, h.crashed⟩
  · exact texts ▸ h.queue
  · exact texts ▸ h.worker
  · exact texts ▸ h.first

/-- Once the worker and the queue are gone nothing is left to agree on, but a replay has to be
    due. -/
theorem scheduleRestart_faithful (sorted : e.documents.documents.Sorted) (down : e.worker = none)
    (waiting : e.queue.jobs = []) (armed : e.replayOnReady = true) :
    Faithful sent (scheduleRestart now e).state := by
  have none : e.queuedEdits = [] := by
    rw [queuedEdits, waiting]
    rfl
  rcases scheduleRestart_cases now e with ⟨-, hstate, -⟩ | ⟨-, hstate, -⟩
  · rw [hstate]
    refine ⟨sorted, none ▸ Agrees.nil, ?_, by simp [backOff], fun _ => armed⟩
    intro w hw
    cases down.symm.trans hw
  · rw [hstate]
    refine ⟨sorted, Agrees.nil, ?_, by simp, by simp⟩
    intro w hw
    cases down.symm.trans hw

theorem issueJobs_requests (e : Engine) (requests : List Request) :
    (e.issueJobs requests).1.map (·.request) = requests := by
  unfold issueJobs
  rw [List.map_map]
  exact List.zipIdx_map_fst 0 _

/-- The edits of a replay are those that build the store. -/
theorem replayed_edits (e : Engine) :
    e.replayed.filterMap (·.request.edit?) =
      if e.replayOnReady then e.documents.texts.edits else [] := by
  unfold replayed
  split
  · have edits := congrArg (List.filterMap Request.edit?)
      (e.issueJobs_requests e.documents.replay)
    rwa [List.filterMap_map, Documents.replay_edits] at edits
  · rfl

/-- A worker that comes up gets a replay ahead of what waits, or is the first one and needs none. -/
theorem welcome_faithful (started : Started) (h : Faithful sent e)
    (starting : e.lifecycle = .starting) (fresh : sent started.worker = []) :
    Faithful sent (e.welcome started) := by
  have queued : (e.welcome started).queuedEdits =
      (if e.replayOnReady then e.documents.texts.edits else []) ++ e.queuedEdits := by
    rw [← replayed_edits]
    exact List.filterMap_append
  have texts : (e.welcome started).documents.texts = e.documents.texts := rfl
  have sorted : e.documents.texts.Sorted := h.sorted.mapValues _
  refine ⟨h.sorted, ?_, ?_, by simp [welcome], by simp [welcome]⟩
  · rw [queued, texts]
    split
    · -- Texts that are out of date may follow the replay, but not as the last edit.
      exact h.queue.prepend sorted.agrees_edits
    · exact h.queue
  · intro w hw
    cases hw
    rw [queued, texts, fresh, List.nil_append]
    cases armed : e.replayOnReady with
    | true =>
      -- The replay builds the store, and what waited before it agrees with the store already.
      rw [if_pos rfl, List.foldl_append, sorted.foldl_edits]
      exact h.queue.foldl_edit_eq sorted
    | false => exact h.first starting armed

/-! ## Steps -/

/-- **One step.** The invariant is kept by every reaction that cancels no edit, does not let the
    first start fail, and brings up no worker that was there before. -/
theorem Reacts.faithful {input : Input} {t : Turn} (r : Reacts now e input t)
    (consistent : e.Consistent) (h : Faithful sent e)
    (spared : ∀ id, input = .command (.cancel id) →
      ∀ j ∈ e.queue.jobs, j.id = id → j.request.edit? = none)
    (armed : ∀ start fault, input = .started start (.error fault) → e.startup = some start →
      e.replayOnReady = true)
    (fresh : ∀ start started, input = .started start (.ok started) → sent started.worker = []) :
    Faithful (sentAfter sent t.effects) t.state := by
  cases r with
  | ignored | shown => exact h.silent rfl
  | submitted job => exact submit_faithful job h consistent
  | cancelled id => exact cancel_faithful id h (spared id rfl)
  | restarted =>
    refine .silent ?_ (sends_restart e)
    rw [restart_state]
    exact ⟨h.sorted, h.queue, by simp, by simp, by simp⟩
  | shutDown caller =>
    refine .silent ?_ (sends_shutdown caller e)
    rw [shutdown_state]
    exact ⟨h.sorted, Agrees.nil, by simp, by simp, by simp⟩
  | heard incoming =>
    exact (receive_faithful incoming h).thenDispatch (sends_receive incoming e)
      (receive_unsettled incoming consistent).up
  | lost reason =>
    refine .silent ?_ (sends_crash now reason e)
    rw [crash_state]
    exact scheduleRestart_faithful h.sorted rfl rfl rfl
  | expired =>
    rw [onDeadline_eq]
    refine Faithful.thenDispatch ?_ (sends_finish_flights ..) consistent.up
    exact ⟨h.sorted, h.queue, h.worker, h.first, h.crashed⟩
  | due _ timer =>
    -- The timer only runs after a crash, so the start is not the first one.
    have crashed := consistent.timer.1 (by simp [timer])
    have replay := h.crashed crashed
    refine .silent ?_ (sends_beginStart e)
    rw [beginStart_state]
    exact ⟨h.sorted, h.queue, h.worker, by simp [replay], by simp⟩
  | @started start result _ pending =>
    have starting := consistent.startup.1 (by simp [pending])
    cases result with
    | ok started =>
      rw [onStarted_ok]
      refine .thenDispatch ?_ (sends_greeting started e) fun _ => rfl
      exact welcome_faithful started h starting (fresh start started rfl)
    | error fault =>
      have down := consistent.no_worker (by simp [starting]) (by simp [starting])
      refine .silent ?_ (sends_onStarted_error now fault e)
      rw [onStarted_error]
      exact scheduleRestart_faithful h.sorted down rfl (armed start fault rfl pending)

/-- Once a worker has come up, the next one gets a replay. -/
def Armed (e : Engine) : Prop :=
  e.worker = none → e.lifecycle ≠ .stopped → e.replayOnReady = true

theorem dispatch_armed (h : e.Armed) (up : e.lifecycle.isUp → e.worker.isSome) :
    (dispatch now e).state.Armed := by
  rcases dispatch_cases now e up with
    ⟨-, heq⟩ | ⟨isUp, -, -, heq⟩ | ⟨w, job, rest, -, -, hw, -, hstate, -⟩
  · rw [heq]
    exact h
  · rw [heq, setState_state]
    intro down
    obtain ⟨w, hw⟩ := Option.isSome_iff_exists.1 (up isUp)
    cases hw.symm.trans down
  · rw [hstate]
    intro down
    cases hw.symm.trans down

theorem scheduleRestart_armed (h : e.replayOnReady = true) :
    (scheduleRestart now e).state.Armed := by
  obtain ⟨_, _, _, _, hstate⟩ := scheduleRestart_frame now e
  rw [hstate]
  exact fun _ _ => h

theorem Reacts.armed {input : Input} {t : Turn} (r : Reacts now e input t)
    (consistent : e.Consistent) (h : e.Armed) : t.state.Armed := by
  cases r with
  | ignored | shown => exact h
  | submitted job =>
    rcases submit_cases now job e with ⟨-, heq⟩ | ⟨-, heq⟩
    · rw [heq]
      exact h
    · rw [heq]
      exact dispatch_armed h consistent.up
  | cancelled id =>
    obtain ⟨_, _, hstate⟩ := cancel_frame id e
    rw [hstate]
    exact h
  | restarted =>
    rw [restart_state]
    exact fun _ _ => rfl
  | shutDown caller =>
    rw [shutdown_state]
    exact fun _ running => absurd rfl running
  | heard incoming =>
    refine dispatch_armed ?_ (receive_unsettled incoming consistent).up
    obtain ⟨_, _, _, -, hstate⟩ := receive_frame incoming e
    rw [hstate]
    exact h
  | lost reason =>
    rw [crash_state]
    exact scheduleRestart_armed rfl
  | expired =>
    rw [onDeadline_eq]
    exact dispatch_armed h consistent.up
  | due alive timer =>
    have crashed := consistent.timer.1 (by simp [timer])
    have down := consistent.no_worker (by simp [crashed]) (by simp [crashed])
    rw [beginStart_state]
    exact fun _ _ => h down alive
  | started result alive pending =>
    have starting := consistent.startup.1 (by simp [pending])
    have down := consistent.no_worker (by simp [starting]) (by simp [starting])
    cases result with
    | ok started =>
      rw [onStarted_ok]
      refine dispatch_armed ?_ fun _ => rfl
      intro none
      cases none
    | error fault =>
      rw [onStarted_error]
      exact scheduleRestart_armed (h down alive)

end Engine

/-! ## Runs -/

namespace History

/-- The edits that a worker was handed. -/
def sentEdits (h : History) (w : WorkerId) : List Edit :=
  editsTo w h.effects

theorem sentEdits_extend (h : History) (o : Occasion) :
    (h.extend o).sentEdits = Engine.sentAfter h.sentEdits (h.engine.answer o).effects := by
  funext w
  rw [sentEdits, effects_extend, editsTo_append]
  rfl

/-- What comes next is neither the end of a start that fails before a worker has come up, nor the
    cancellation of an edit that waits. -/
def Spares (h : History) : Occasion → Prop
  | .input _ (.started start (.error _)) =>
    h.engine.startup = some start → ∃ m ∈ h.past, m.after.worker.isSome
  | .input _ (.command (.cancel id)) =>
    ∀ j ∈ h.engine.queue.jobs, j.id = id → j.request.edit? = none
  | _ => True

instance (h : History) : DecidablePred h.Spares
  | .draw => .isTrue trivial
  | .input _ (.command (.submit _)) => .isTrue trivial
  | .input _ (.command (.cancel _)) => inferInstanceAs (Decidable (∀ j ∈ _, _ → _))
  | .input _ (.command .restart) => .isTrue trivial
  | .input _ (.command (.snapshot _)) => .isTrue trivial
  | .input _ (.command (.shutdown _)) => .isTrue trivial
  | .input _ (.frame ..) => .isTrue trivial
  | .input _ (.closed ..) => .isTrue trivial
  | .input _ .deadline => .isTrue trivial
  | .input _ .restartDue => .isTrue trivial
  | .input _ (.started _ (.ok _)) => .isTrue trivial
  | .input _ (.started _ (.error _)) => inferInstanceAs (Decidable (_ → ∃ m ∈ _, _))

/-- A run in which no start fails before a worker has come up, and no edit is cancelled while it
    waits. -/
def Undisturbed (policy : RestartPolicy) (os : List Occasion) : Prop :=
  Along Spares (boot policy) os

instance (policy : RestartPolicy) (os : List Occasion) : Decidable (Undisturbed policy os) :=
  inferInstanceAs (Decidable (Along Spares (boot policy) os))

/-- A replay that is due stays due until a worker comes up. -/
theorem run_armed_of {policy : RestartPolicy} {os : List Occasion} {x : Moment}
    (hx : x ∈ (run policy os).past) (armed : x.after.Armed) : (run policy os).engine.Armed := by
  obtain ⟨before, after, hpast⟩ := List.append_of_mem hx
  refine run_since (P := fun _ e => e.Armed) hpast armed ?_
  rintro - ⟨e, o⟩ - consistent earlier
  cases o with
  | draw => exact earlier
  | input now input => exact (Engine.step_reacts now e input).armed consistent earlier

/-- Once a worker has come up, every later one gets a replay. -/
theorem run_armed (policy : RestartPolicy) (os : List Occasion) :
    (∃ x ∈ (run policy os).past, x.after.worker.isSome) → (run policy os).engine.Armed := by
  rintro ⟨x, hx, up⟩
  -- The worker that has just come up is there, so nothing is due yet.
  refine run_armed_of hx fun down => ?_
  obtain ⟨w, hw⟩ := Option.isSome_iff_exists.1 up
  cases hw.symm.trans down

/-- The documents are mirrored, and nothing was sent to a worker that has not come up. -/
structure Mirrored (h : History) : Prop where
  faithful : h.engine.Faithful h.sentEdits
  present : ∀ w, h.engine.worker = some w → w ∈ h.workers
  quiet : ∀ w, w ∉ h.workers → h.sentEdits w = []

theorem mirrored_boot (policy : RestartPolicy) : (boot policy).Mirrored := by
  refine ⟨⟨List.Pairwise.nil, Agrees.nil, ?_, ?_, ?_⟩, ?_, ?_⟩ <;>
    simp [boot, Engine.boot, sentEdits, effects, editsTo, Engine.queuedEdits, Documents.texts,
      TextMap.mapValues]

theorem Mirrored.draw {h : History} (mirrored : h.Mirrored) : (h.extend .draw).Mirrored := by
  have sent : (h.extend .draw).sentEdits = h.sentEdits := by
    rw [sentEdits_extend]
    exact Engine.sentAfter_of_sends_eq_nil _ rfl
  have workers : (h.extend .draw).workers = h.workers := by
    simp [workers, Moment.worker?]
  obtain ⟨faithful, present, quiet⟩ := mirrored
  refine ⟨?_, ?_, ?_⟩
  · rw [sent]
    exact ⟨faithful.sorted, faithful.queue, faithful.worker, faithful.first, faithful.crashed⟩
  · rw [workers]
    exact present
  · rw [sent, workers]
    exact quiet

theorem Mirrored.input {h : History} (mirrored : h.Mirrored) (consistent : h.engine.Consistent)
    (armed : (∃ m ∈ h.past, m.after.worker.isSome) → h.engine.Armed) {now : Nat} {input : Input}
    (allowed : h.Allows (.input now input)) (spared : h.Spares (.input now input)) :
    (h.extend (.input now input)).Mirrored := by
  have reacts := Engine.step_reacts now h.engine input
  have present : ∀ w, (h.extend (.input now input)).engine.worker = some w →
      w ∈ (h.extend (.input now input)).workers := by
    intro w hw
    rw [mem_workers_extend]
    rcases reacts.worker_cases consistent hw with hw | ⟨start, started, rfl, rfl⟩
    · exact Or.inl (mirrored.present w hw)
    · exact Or.inr rfl
  refine ⟨?_, present, ?_⟩
  · rw [sentEdits_extend]
    refine reacts.faithful consistent mirrored.faithful ?_ ?_ ?_
    · rintro id rfl
      exact spared
    · rintro start fault rfl pending
      have starting := consistent.startup.1 (Option.isSome_iff_exists.2 ⟨start, pending⟩)
      exact armed (spared pending)
        (consistent.no_worker (by simp [starting]) (by simp [starting])) (by simp [starting])
    · rintro start started rfl
      exact mirrored.quiet started.worker allowed
  · -- What is sent goes to a worker that has come up.
    intro w hw
    have unknown : w ∉ h.workers := fun known => hw (mem_workers_extend.2 (Or.inl known))
    have none : editsTo w (h.engine.step now input).effects = [] := by
      refine List.filterMap_eq_nil_iff.2 fun s hs => if_neg ?_
      rintro rfl
      exact hw (present s.worker (reacts.sends_to consistent hs))
    rw [sentEdits_extend]
    show h.sentEdits w ++ editsTo w (h.engine.step now input).effects = []
    rw [mirrored.quiet w unknown, none]
    rfl

theorem lawful_mirrored {policy : RestartPolicy} {os : List Occasion} (lawful : Lawful policy os)
    (calm : Undisturbed policy os) : (run policy os).Mirrored := by
  induction os using List.reverseRecOn with
  | nil => exact mirrored_boot policy
  | append_singleton os o ih =>
    have allowed : (run policy os).Allows o := lawful.allows
    have spared : (run policy os).Spares o := Along.next calm
    have mirrored := ih lawful.take (Along.take calm)
    rw [run_concat]
    cases o with
    | draw => exact mirrored.draw
    | input now input =>
      exact mirrored.input (run_consistent policy os) (run_armed policy os) allowed spared

/-- **The worker's documents match the open ones.** Take a lawful run in which no start fails
    before a worker has come up, and no edit is cancelled while it waits. Whenever the worker is
    ready or busy, applying to no documents at all the edits that it was handed, and then the edits
    that still wait, gives exactly the texts of the open documents. -/
theorem worker_documents_match {policy : RestartPolicy} {os : List Occasion}
    (lawful : Lawful policy os) (calm : Undisturbed policy os)
    (up : (run policy os).engine.lifecycle = .ready ∨ (run policy os).engine.lifecycle = .busy) :
    ∃ w, (run policy os).engine.worker = some w ∧
      ((run policy os).sentEdits w ++ (run policy os).engine.queuedEdits).foldl TextMap.edit [] =
        (run policy os).engine.documents.texts := by
  have mirrored := lawful_mirrored lawful calm
  obtain ⟨w, hw⟩ := Option.isSome_iff_exists.1 ((run_consistent policy os).worker.2 up)
  exact ⟨w, hw, mirrored.faithful.worker w hw⟩

/-! ## A run with two replays -/

/-- A document is changed while its first text is in flight, a check is cancelled while it waits,
    the worker is replaced, its successor fails to start, and the document is replayed to a third
    worker, ahead of one that was opened meanwhile. -/
def troubled : List Occasion :=
  [.draw, .draw, .draw, .draw,
    .input 0 (.command (.submit { id := ⟨1⟩, request := .addUri "a" "x" })),
    .input 1 (.started 0 (.ok ⟨0, none⟩)),
    .input 2 (.command (.submit { id := ⟨2⟩, request := .addUri "a" "y" })),
    .input 3 (.command (.submit { id := ⟨3⟩, request := .check none })),
    .input 4 (.command (.cancel ⟨3⟩)), .input 5 (.command .restart),
    .input 6 (.started 1 (.error (.silent 30))), .input 7 (.command .restart),
    .input 8 (.command (.submit { id := ⟨4⟩, request := .addUri "b" "z" })),
    .input 9 (.started 2 (.ok ⟨1, none⟩))]

theorem troubled_documents_match :
    (Lawful {} troubled ∧ Undisturbed {} troubled ∧
      (run {} troubled).engine.lifecycle = .busy) ∧
    (run {} troubled).engine.documents.texts = [("a", "y"), ("b", "z")] ∧
    ∃ w, (run {} troubled).engine.worker = some w ∧
      ((run {} troubled).sentEdits w ++ (run {} troubled).engine.queuedEdits).foldl
        TextMap.edit [] = (run {} troubled).engine.documents.texts := by
  have lawful : Lawful {} troubled := by decide
  have calm : Undisturbed {} troubled := by decide
  have busy : (run {} troubled).engine.lifecycle = .busy := by decide
  exact ⟨⟨lawful, calm, busy⟩, by decide, worker_documents_match lawful calm (Or.inr busy)⟩

end History

end WorkerBridge
