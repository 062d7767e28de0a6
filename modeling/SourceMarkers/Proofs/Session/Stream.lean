import SourceMarkers.Proofs.Session.Requests
import SourceMarkers.Text.Utf8.RoundTrip

/-!
# Serving request by request

Serving reads lines, passes padding over, and puts out one line at a time while
events wait. What comes of it is simpler than that. The requests of the input
are answered one after the other, and the reply to each goes out as one chunk,
as far as there is room.

Two things are behind this. Putting out one text after another is putting out
both as one, and it goes wrong at the same octet; so a response and its events
are a chunk. And no event waits when a line is read: those of a request are put
out before the next line is read, or serving is over.

## Main definitions

* `InputEnd.stop`: Why serving is over when the input is.
* `Session.serveLines`: Answering requests one after the other.

## Theorems

* `put_append`: Putting out two texts is putting out both as one.
* `Wire.run_putAll`, `Reply.flatten_lines`: A response and its events are put out
  as a chunk.
* `Session.serveFrom_of_over`, `Session.serveFrom_of_next`: Serving, by the turn
  that is taken first.
* `Session.endedWell_of_over`: How serving ends.
* `Session.serveFrom_eq`, `Session.serve_eq_serveLines`: Serving an input is
  answering its requests.
-/

namespace SourceMarkers

/-! ## Putting out -/

theorem put_none (octets : List UInt8) : put none octets = ⟨octets, some none⟩ := rfl

/-- What does not fit is put out as far as it fits, and refused from there on. -/
theorem put_of_lt (room : Nat) (octets : List UInt8) (h : room < octets.length) :
    put (some room) octets = ⟨octets.take room, none⟩ := by
  unfold put
  simp only [if_pos h]

/-- What fits is put out. -/
theorem put_of_le (room : Nat) (octets : List UInt8) (h : octets.length ≤ room) :
    put (some room) octets = ⟨octets, some (some (room - octets.length))⟩ := by
  unfold put
  simp only [if_neg (Nat.not_lt.mpr h)]

/-- A limited output takes the octets up to its limit. -/
theorem taken_put (room : Nat) (octets : List UInt8) :
    (put (some room) octets).taken = octets.take room := by
  rcases Nat.lt_or_ge room octets.length with hlt | hle
  · rw [put_of_lt room octets hlt]
  · rw [put_of_le room octets hle, List.take_of_length_le hle]

/-- When there is room left, nothing was refused. -/
theorem put_of_room (room left : Option Nat) (octets : List UInt8)
    (h : (put room octets).room? = some left) : put room octets = ⟨octets, some left⟩ := by
  cases room with
  | none =>
    rw [put_none] at h ⊢
    rw [← h]
  | some limit =>
    rcases Nat.lt_or_ge limit octets.length with hlt | hle
    · rw [put_of_lt limit octets hlt] at h
      exact absurd h (by simp only [reduceCtorEq, not_false_eq_true])
    · rw [put_of_le limit octets hle] at h ⊢
      rw [← h]

theorem andThen_some (taken : List UInt8) (room : Option Nat) (next : Option Nat → Put) :
    (Put.mk taken (some room)).andThen next = ⟨taken ++ (next room).taken, (next room).room?⟩ :=
  rfl

/-- Putting out two texts, one after the other, is putting out both as one. -/
theorem put_append (room : Option Nat) (front back : List UInt8) :
    put room (front ++ back) = (put room front).andThen fun room => put room back := by
  cases room with
  | none => rfl
  | some left =>
    by_cases hfront : left < front.length
    · -- The limit lies in the first text.
      have hboth : left < (front ++ back).length := by
        rw [List.length_append]
        omega
      rw [put_of_lt left _ hboth, put_of_lt left _ hfront,
        List.take_append_of_le_length (Nat.le_of_lt hfront)]
      rfl
    have hle : front.length ≤ left := Nat.le_of_not_lt hfront
    rw [put_of_le left front hle, andThen_some]
    by_cases hback : left - front.length < back.length
    · have hboth : left < (front ++ back).length := by
        rw [List.length_append]
        omega
      rw [put_of_lt left _ hboth, put_of_lt _ _ hback, List.take_append,
        List.take_of_length_le hle]
    · have hboth : (front ++ back).length ≤ left := by
        rw [List.length_append]
        omega
      rw [put_of_le left _ hboth, put_of_le _ _ (Nat.le_of_not_lt hback), List.length_append,
        Nat.sub_sub]

/-- So it is on a wire, where nothing more is put out after a refusal. -/
theorem Wire.put_append (w : Wire) (front back : List UInt8) :
    w.put (front ++ back) =
      match w.put front with
      | (none, w) => w.put back
      | (some reason, w) => (some reason, w) := by
  unfold Wire.put
  simp only [SourceMarkers.put_append]
  rcases SourceMarkers.put w.room front with ⟨taken, room?⟩
  cases room? with
  | none => rfl
  | some room =>
    simp only [Put.andThen, List.append_assoc]

theorem Wire.put_nil (w : Wire) : w.put [] = (none, w) := by
  rcases w with ⟨input, ending, room, output, log⟩
  unfold Wire.put
  cases room with
  | none => simp only [SourceMarkers.put, List.append_nil]
  | some left =>
    simp only [put_of_le left [] (Nat.zero_le left), List.length_nil, Nat.sub_zero,
      List.append_nil]

/-- Putting out texts one after the other is putting out all of them as one. -/
theorem Wire.run_putAll (w : Wire) (texts : List (List UInt8)) :
    (port.putAll texts).run w = w.put texts.flatten := by
  induction texts generalizing w with
  | nil => exact w.put_nil.symm
  | cons octets rest ih =>
    rw [List.flatten_cons, put_append, Port.putAll, run_bind, run_put]
    rcases w.put octets with ⟨refused?, after⟩
    cases refused? with
    | none => exact ih after
    | some reason => rfl

/-- The lines of a reply are its chunk when no event waits. -/
theorem Reply.flatten_lines (r : Reply) : (r.lines []).flatten = r.chunk := by
  have hevents : ∀ events : List Event, (events.map fun e => outputLine e.chars).flatten =
      Utf8.encode (events.flatMap fun e => e.chars ++ ['\n']) := by
    intro events
    induction events with
    | nil => rfl
    | cons e rest ih =>
      rw [List.map_cons, List.flatten_cons, ih, List.flatMap_cons, Utf8.encode_append]
      rfl
  rw [Reply.lines, List.nil_append, List.flatten_cons, hevents, Reply.chunk, Reply.chars,
    Utf8.encode_append]
  rfl

/-! ## Serving -/

theorem Service.after_after (service : Service) (front back : List UInt8) (first last : List Entry) :
    (service.after back last).after front first = service.after (front ++ back) (first ++ last) := by
  unfold Service.after
  simp only [List.append_assoc]

/-- Why serving is over when all of the input was read. -/
def InputEnd.stop : InputEnd → Stop
  | .ended => .inputEnded
  | .failed reason => .inputFailed reason

namespace Session

/-- Answers requests one after the other while the output has room; without a
    number there is room for everything. -/
def serveLines : Session → Option Nat → List (List UInt8) → Service
  | s, _, [] => ⟨s, [], true, []⟩
  | s, room, line :: rest =>
    let reply := s.answerOctets line
    let out := put room reply.chunk
    match out.room? with
    | none => ⟨reply.session, out.taken, false, reply.log ++ (Stop.clientGone outputClosed).log⟩
    | some room => (serveLines reply.session room rest).after out.taken reply.log

/-- What comes of serving, with the entries about the end of the input if it
    was read to its end. -/
def atInputEnd (service : Service) (ending : InputEnd) : Service :=
  if service.delivered then { service with log := service.log ++ ending.stop.log } else service

/-- The end of the input is only told. -/
theorem atInputEnd_fields (service : Service) (ending : InputEnd) :
    (atInputEnd service ending).session = service.session ∧
      (atInputEnd service ending).output = service.output ∧
      (atInputEnd service ending).delivered = service.delivered := by
  unfold atInputEnd
  split <;> exact ⟨rfl, rfl, rfl⟩

theorem atInputEnd_after (service : Service) (ending : InputEnd) (output : List UInt8)
    (log : List Entry) :
    atInputEnd (service.after output log) ending = (atInputEnd service ending).after output log := by
  unfold atInputEnd Service.after
  simp only []
  split
  · rw [List.append_assoc]
  · rfl

/-- Serving is over when the first turn says so. -/
theorem serveFrom_of_over (s : Session) (room : Option Nat) (waiting : List Event)
    (input : List UInt8) (ending : InputEnd) (last : Session) (stop : Stop) (w : Wire)
    (h : s.turn waiting ⟨input, ending, room, [], []⟩ = (.over last stop, w)) :
    s.serveFrom room waiting input ending = ⟨last, w.output, stop.delivered, w.log⟩ := by
  rw [serveFrom]
  split
  · next hturn =>
    rw [h, Prod.mk.injEq, Turn.over.injEq] at hturn
    rcases hturn with ⟨⟨rfl, rfl⟩, rfl⟩
    rfl
  · next hturn =>
    rw [h, Prod.mk.injEq] at hturn
    exact absurd hturn.1 (by simp only [reduceCtorEq, not_false_eq_true])

/-- Serving goes on behind a first turn that is followed by another one. -/
theorem serveFrom_of_next (s : Session) (room : Option Nat) (waiting : List Event)
    (input : List UInt8) (ending : InputEnd) (next : Session) (left : List Event) (w : Wire)
    (h : s.turn waiting ⟨input, ending, room, [], []⟩ = (.next next left, w)) :
    s.serveFrom room waiting input ending =
      (next.serveFrom w.room left w.input ending).after w.output w.log := by
  rw [serveFrom]
  split
  · next hturn =>
    rw [h, Prod.mk.injEq] at hturn
    exact absurd hturn.1 (by simp only [reduceCtorEq, not_false_eq_true])
  · next hturn =>
    rw [h, Prod.mk.injEq, Turn.next.injEq] at hturn
    rcases hturn with ⟨⟨rfl, rfl⟩, rfl⟩
    rfl

/-- A session has ended well just when the turn that ended it says so. The turns before
    that one play no part, by `serveFrom_of_next`. -/
theorem endedWell_of_over (s : Session) (room : Option Nat) (waiting : List Event)
    (input : List UInt8) (ending : InputEnd) (last : Session) (stop : Stop) (w : Wire)
    (h : s.turn waiting ⟨input, ending, room, [], []⟩ = (.over last stop, w)) :
    (s.serveFrom room waiting input ending).endedWell ending = stop.well := by
  rw [serveFrom_of_over s room waiting input ending last stop w h]
  rw [turn_eq] at h
  cases hread : readLine input ending with
  | ended =>
    rcases requestLines_of_ended input ending hread with ⟨_, rfl⟩
    simp only [hread, Prod.mk.injEq, Turn.over.injEq] at h
    rw [← h.1.2]
    rfl
  | failed reason =>
    rcases requestLines_of_failed input ending reason hread with ⟨_, rfl⟩
    simp only [hread, Prod.mk.injEq, Turn.over.injEq] at h
    rw [← h.1.2]
    rfl
  | line line rest =>
    -- Only a client that is gone ends serving behind a line.
    simp only [hread] at h
    split at h
    · exact absurd h (by simp only [Prod.mk.injEq, reduceCtorEq, false_and, not_false_eq_true])
    · split at h
      · exact absurd h (by simp only [Prod.mk.injEq, reduceCtorEq, false_and, not_false_eq_true])
      · rw [Prod.mk.injEq, Turn.over.injEq] at h
        rw [← h.1.2]
        rfl

/-- As long as no event waits, serving what is left of an input is answering
    the requests in it. -/
theorem serveFrom_eq (s : Session) (room : Option Nat) (input : List UInt8) (ending : InputEnd) :
    s.serveFrom room [] input ending =
      atInputEnd (s.serveLines room (requestLines input ending)) ending := by
  -- The induction is on what is left to read; each line leaves less of it.
  induction hlength : input.length using Nat.strong_induction_on generalizing s room input with
  | _ n ih =>
    have hturn := s.turn_eq [] ⟨input, ending, room, [], []⟩
    cases hread : readLine input ending with
    | ended =>
      rcases requestLines_of_ended input ending hread with ⟨hrequests, rfl⟩
      rw [hrequests, serveFrom_of_over s room [] input _ _ _ _ (by rw [hturn, hread])]
      rfl
    | failed reason =>
      rcases requestLines_of_failed input ending reason hread with ⟨hrequests, rfl⟩
      rw [hrequests, serveFrom_of_over s room [] input _ _ _ _ (by rw [hturn, hread])]
      rfl
    | line line rest =>
      have hless : rest.length < n := hlength ▸ length_lt_of_readLine hread
      have hrest := fun s room => ih rest.length hless s room rest rfl
      rw [requestLines_of_line input line rest ending hread]
      simp only [hread] at hturn
      by_cases hempty : (trimPadding line).isEmpty = true
      · rw [if_pos hempty] at hturn ⊢
        rw [serveFrom_of_next s room [] input ending _ _ _ hturn]
        exact hrest s room
      · -- The events of the request are the only ones that wait.
        rw [if_neg hempty] at hturn ⊢
        rw [Wire.run_putAll, Reply.flatten_lines] at hturn
        rw [serveLines]
        simp only [Wire.put, Wire.tell, List.nil_append] at hturn ⊢
        rcases hput : put room (s.answerOctets (trimPadding line)).chunk with ⟨taken, left?⟩
        rw [hput] at hturn
        cases left? with
        | none => exact serveFrom_of_over s room [] input ending _ _ _ hturn
        | some left =>
          rw [serveFrom_of_next s room [] input ending _ _ _ hturn]
          simp only []
          rw [hrest, atInputEnd_after]

/-- Serving an input is answering the requests in it. -/
theorem serve_eq_serveLines (s : Session) (room : Option Nat) (input : List UInt8)
    (ending : InputEnd) :
    s.serve room input ending =
      atInputEnd (s.serveLines room (requestLines input ending)) ending :=
  serveFrom_eq s room input ending

end Session

end SourceMarkers
