/-
  WorkerBridge.Proofs.Way

  The way of requests to one worker.

  The writer takes messages from the front of the outbox and puts their bytes
  into the pipe, as far as the pipe has room. `Way.write_outbox` is all that the
  outbox needs to know of it. Once a frame is under way for which there is no
  room, the way is jammed: the writer does nothing more (`Way.Jammed.write`) until
  the worker reads, and any frame that is longer than the pipe jams the way
  (`Way.write_jams`).
-/
import Mathlib.Data.List.Infix
import WorkerBridge.Link
import WorkerBridge.Proofs.JsonText
import WorkerBridge.Proofs.Written

namespace WorkerBridge

/-- The way to one worker: the bridge's side of it, and the pipe. -/
structure Way where
  sender : Sender
  inlet : Inlet := {}

namespace Way

/-- The way to a new worker: nothing but the readiness probe waits. -/
def fresh : Way :=
  { sender := Sender.put {} (.message (Request.version.message JobId.probe)) }

/-- The writer runs for a number of steps. `broken` tells that the worker no longer reads. -/
def write (broken : Bool) (fuel : Nat) (w : Way) : Way :=
  let result := w.sender.run broken fuel w.inlet
  { sender := result.2.1, inlet := result.2.2 }

/-- The worker reads for a number of steps. -/
def read (fuel : Nat) (w : Way) : Way :=
  { w with inlet := (w.inlet.read fuel).2 }

/-- A message is put behind the others. -/
def put (m : Outgoing) (w : Way) : Way :=
  { w with sender := w.sender.put m }

/-! ## What the writer takes -/

/-- The writer takes messages from the front of the outbox, and puts none there. -/
theorem write_outbox (broken : Bool) (fuel : Nat) (w : Way) :
    (w.write broken fuel).sender.outbox <:+ w.sender.outbox := by
  obtain ⟨sender, inlet⟩ := w
  rw [write]
  dsimp only
  fun_induction Sender.run broken fuel sender inlet with
  | case1 | case2 | case4 | case5 | case7 => exact List.suffix_rfl
  | case3 fuel s i writer ih => exact ih
  | case6 fuel s i header body _ _ _ _ n writer ih => exact ih
  | case8 fuel s i _ rest outbox =>
    rw [outbox]
    exact List.suffix_cons ..
  | case9 fuel s i _ v rest outbox =>
    rw [outbox]
    exact List.suffix_cons ..
  | case10 fuel s i _ v rest outbox i' writer _ ih =>
    rw [outbox]
    exact ih.trans (List.suffix_cons ..)

/-! ## Jams -/

/-- A step of the writer with a frame under way: what fits of its header, or else of its body. -/
theorem run_writing {header body : Nat} (unwritten : 0 < header + body) (outbox : List Outgoing)
    (i : Inlet) (fuel : Nat) :
    Sender.run false (fuel + 1) ⟨outbox, .writing header body⟩ i =
      if i.room = 0 then (.waiting, ⟨outbox, .writing header body⟩, i)
      else if 0 < header then
        Sender.run false fuel ⟨outbox, .writing (header - min i.room header) body⟩
          { i with written := i.written + min i.room header }
      else
        Sender.run false fuel ⟨outbox, .writing 0 (body - min i.room body)⟩
          { i with written := i.written + min i.room body } := by
  cases header with
  | zero =>
    cases body with
    | zero => exact absurd unwritten (by decide)
    | succ body => rfl
  | succ header => rfl

/-- A frame is under way, and there is no room for its next byte. -/
structure Jammed (w : Way) : Prop where
  writing : ∃ header body, w.sender.writer = .writing header body ∧ 0 < header + body
  full : w.inlet.room = 0

theorem Jammed.writer_ne_ended {w : Way} (jammed : w.Jammed) : w.sender.writer ≠ .ended := by
  obtain ⟨header, body, writing, -⟩ := jammed.writing
  simp [writing]

theorem Jammed.put {w : Way} (jammed : w.Jammed) (m : Outgoing) : (w.put m).Jammed :=
  ⟨jammed.writing, jammed.full⟩

/-- The writer waits for room. -/
theorem Jammed.write {w : Way} (jammed : w.Jammed) (fuel : Nat) : w.write false fuel = w := by
  obtain ⟨⟨outbox, writer⟩, inlet⟩ := w
  obtain ⟨⟨header, body, writing, unwritten⟩, full⟩ := jammed
  dsimp only at writing full
  subst writing
  cases fuel with
  | zero => rfl
  | succ fuel =>
    rw [Way.write]
    dsimp only
    rw [run_writing unwritten, if_pos full]

/-- A frame of which more is left than the pipe has room for jams the way. -/
theorem write_jams_body {outbox : List Outgoing} {body : Nat} {i : Inlet}
    (sound : i.taken ≤ i.written) (long : i.room < body) (fuel : Nat) :
    ∃ w : Way, write false (fuel + 1) ⟨⟨outbox, .writing 0 body⟩, i⟩ = w ∧ w.Jammed ∧
      w.sender.outbox = outbox := by
  by_cases full : i.room = 0
  · have jammed : Jammed ⟨⟨outbox, .writing 0 body⟩, i⟩ := ⟨⟨0, body, rfl, by omega⟩, full⟩
    exact ⟨_, jammed.write _, jammed, rfl⟩
  · have filled : Jammed ⟨⟨outbox, .writing 0 (body - i.room)⟩,
        { i with written := i.written + i.room }⟩ := by
      refine ⟨⟨0, body - i.room, rfl, by omega⟩, ?_⟩
      simp only [Inlet.room] at *
      omega
    refine ⟨_, ?_, filled, rfl⟩
    have rest := filled.write fuel
    rw [write] at rest ⊢
    dsimp only at rest ⊢
    rw [run_writing (by omega), if_neg full, if_neg (by decide), Nat.min_eq_left (by omega)]
    exact rest

theorem write_jams_frame {outbox : List Outgoing} {header body : Nat} {i : Inlet}
    (sound : i.taken ≤ i.written) (positive : 0 < header) (long : i.room < header + body)
    (fuel : Nat) :
    ∃ w : Way, write false (fuel + 2) ⟨⟨outbox, .writing header body⟩, i⟩ = w ∧ w.Jammed ∧
      w.sender.outbox = outbox := by
  by_cases full : i.room = 0
  · have jammed : Jammed ⟨⟨outbox, .writing header body⟩, i⟩ :=
      ⟨⟨header, body, rfl, by omega⟩, full⟩
    exact ⟨_, jammed.write _, jammed, rfl⟩
  · have stepped : write false (fuel + 2) ⟨⟨outbox, .writing header body⟩, i⟩ =
        write false (fuel + 1) ⟨⟨outbox, .writing (header - min i.room header) body⟩,
          { i with written := i.written + min i.room header }⟩ := by
      rw [write, write]
      dsimp only
      rw [run_writing (by omega), if_neg full, if_pos positive]
    rw [stepped]
    by_cases fits : header ≤ i.room
    · rw [Nat.min_eq_right fits, Nat.sub_self]
      refine write_jams_body ?_ ?_ fuel
      · dsimp only
        omega
      · simp only [Inlet.room] at *
        omega
    · have jammed : Jammed ⟨⟨outbox, .writing (header - min i.room header) body⟩,
          { i with written := i.written + min i.room header }⟩ := by
        refine ⟨⟨_, _, rfl, by omega⟩, ?_⟩
        simp only [Inlet.room] at *
        omega
      exact ⟨_, jammed.write _, jammed, rfl⟩

/-- How many bytes the body of a message has. -/
def bodySize (v : Json) : Nat :=
  v.compact.utf8ByteSize

/-- How many bytes the header in front of it has. -/
def headerSize (v : Json) : Nat :=
  (Frame.header (bodySize v)).utf8ByteSize

theorem headerSize_pos (v : Json) : 0 < headerSize v := by
  have bound := (Json.utf8ByteSize_bounds (Frame.header (bodySize v))).1
  rw [Frame.header_eq, String.toList_ofList] at bound
  simp only [List.length_append, List.length_cons] at bound
  rw [headerSize, Frame.header_eq]
  omega

/-- The header of a body that may be sent is short. -/
theorem headerSize_le {v : Json} (within : bodySize v ≤ Frame.maxBody) : headerSize v ≤ 112 := by
  have digits : (Decimal.digits (bodySize v)).length ≤ 8 := by
    refine Decimal.length_digits_le (k := 7) ?_
    simp only [Frame.maxBody] at within
    omega
  have name : Frame.lengthHeader.toList.length = 14 := by decide
  have bound := (Json.utf8ByteSize_bounds (Frame.header (bodySize v))).2
  rw [Frame.header_eq, Frame.announcement, String.toList_ofList] at bound
  simp only [List.length_append, List.length_cons, List.length_nil, name] at bound
  rw [headerSize, Frame.header_eq, Frame.announcement]
  omega

/-- A step of the idle writer: it begins the next frame. -/
theorem run_idle {v : Json} (within : bodySize v ≤ Frame.maxBody) (rest : List Outgoing)
    (i : Inlet) (fuel : Nat) :
    Sender.run false (fuel + 1) ⟨.message v :: rest, .idle⟩ i =
      Sender.run false fuel ⟨rest, .writing (headerSize v) (bodySize v)⟩
        { i with transits := i.transits ++ [⟨headerSize v, bodySize v, v⟩] } := by
  have begun : i.begin v =
      .ok ({ i with transits := i.transits ++ [⟨headerSize v, bodySize v, v⟩] },
        .writing (headerSize v) (bodySize v)) := if_neg (Nat.not_lt.2 within)
  rw [Sender.run]
  dsimp only
  rw [begun]

/-- **A frame that is longer than the pipe jams the way**, however much of the pipe is free. -/
theorem write_jams {w : Way} {v : Json} {rest : List Outgoing} (idle : w.sender.writer = .idle)
    (next : w.sender.outbox = .message v :: rest) (sound : w.inlet.taken ≤ w.inlet.written)
    (long : Link.pipeCapacity < bodySize v) (within : bodySize v ≤ Frame.maxBody) (fuel : Nat) :
    (w.write false (fuel + 3)).Jammed ∧ (w.write false (fuel + 3)).sender.outbox = rest := by
  obtain ⟨⟨outbox, writer⟩, i⟩ := w
  dsimp only at idle next sound
  subst idle next
  have room : i.room < headerSize v + bodySize v := by
    have capacity : i.room ≤ Link.pipeCapacity := Nat.sub_le ..
    omega
  obtain ⟨w, written, jammed, kept⟩ : ∃ w : Way, write false (fuel + 2)
      ⟨⟨rest, .writing (headerSize v) (bodySize v)⟩,
        { i with transits := i.transits ++ [⟨headerSize v, bodySize v, v⟩] }⟩ = w ∧ w.Jammed ∧
      w.sender.outbox = rest := by
    refine write_jams_frame ?_ (headerSize_pos v) ?_ fuel
    · exact sound
    · exact room
  have begun : write false (fuel + 3) ⟨⟨.message v :: rest, .idle⟩, i⟩ = w := by
    rw [← written, write, write]
    dsimp only
    rw [run_idle within]
  rw [begun]
  exact ⟨jammed, kept⟩

/-- A frame that is shorter than the empty pipe is written to its end. -/
theorem write_passes {v : Json} (nonempty : 0 < bodySize v)
    (short : headerSize v + bodySize v < Link.pipeCapacity) :
    ∃ i : Inlet, i.taken ≤ i.written ∧ write false 5 ⟨⟨[.message v], .idle⟩, {}⟩ = ⟨{}, i⟩ := by
  have positive := headerSize_pos v
  have within : bodySize v ≤ Frame.maxBody := by
    simp only [Link.pipeCapacity, Frame.maxBody] at *
    omega
  refine ⟨{ written := headerSize v + bodySize v, transits := [⟨headerSize v, bodySize v, v⟩] },
    Nat.zero_le _, ?_⟩
  rw [write]
  dsimp only
  rw [run_idle within, run_writing (by omega), if_neg, if_pos positive, Nat.min_eq_right,
    Nat.sub_self, run_writing (by omega), if_neg, if_neg (by decide), Nat.min_eq_right,
    Nat.sub_self]
  · simp [Sender.run]
  all_goals simp only [Inlet.room]; omega

/-- The worker takes nothing out of the pipe that was not written into it. -/
theorem read_sound {w : Way} (sound : w.inlet.taken ≤ w.inlet.written) (fuel : Nat) :
    (w.read fuel).inlet.taken ≤ (w.read fuel).inlet.written := by
  obtain ⟨sender, i⟩ := w
  have filled : ∀ i : Inlet, i.taken ≤ i.written → i.fill.taken ≤ i.fill.written := by
    intro i within
    simp only [Inlet.fill]
    omega
  rw [read]
  dsimp only at sound ⊢
  fun_induction Inlet.read fuel i with
  | case1 | case2 | case3 | case4 => exact sound
  | case5 _ i _ _ _ _ _ _ _ _ _ ih => exact ih (filled i sound)
  | case6 _ _ _ _ _ _ _ _ _ _ _ _ ih => exact ih sound
  | case7 _ _ _ _ _ _ _ _ _ _ _ _ ih => exact ih sound
  | case8 _ i _ _ _ _ _ _ _ _ _ _ _ ih =>
    refine ih ?_
    dsimp only
    omega
  | case9 _ i _ _ _ _ _ _ _ _ _ _ ih => exact ih (filled i sound)

end Way

end WorkerBridge
