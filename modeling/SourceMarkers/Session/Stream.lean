import SourceMarkers.Session.Lifetime

/-!
# Serving a stream

Requests come as lines of one input stream, and responses and events go as
lines to one output stream: for each request its response and then its events.
Padding around a request means nothing, and a line of padding is no request.

The input is read up to the next line end each time, and the request of that
line is carried out before more is read. Its events join those that wait. Then
the response is put out, and behind it every event that waits, one line after
the other.

A session ends well when the input ends, or when the client stops reading; it
ends badly when the input fails. A last line without a line end is a request
when the input ends, and none when the input fails.

What is done between two lines is one turn, `Session.turnOn`. It goes through a
`Port`, in whatever monad that works. Here the port is a wire, where the input
is known from the start and the output takes a limited number of octets or any
number. The first line that does not fit is put out as far as it fits, and then
the session is over; the request was carried out.

## Main definitions

* `InputEnd`: How the input ends.
* `LineRead`, `readLine`: Reading a line.
* `Reply.chunk`: What a request puts out.
* `Put`, `put`: Putting out octets as far as there is room.
* `Port`: What a session that is served talks to.
* `Session.turnOn`: One turn of serving.
* `Wire`, `Wire.port`: Streams as values.
* `Session.serveFrom`, `Session.serve`: Serving an input.

## Theorems

* `length_lt_of_readLine`: Reading a line leaves less to read.
* `Session.length_lt_of_turn`: So does a turn that another one follows.
-/

namespace SourceMarkers

/-! ## Input -/

/-- How an input stream ends. -/
inductive InputEnd where
  | ended
  /-- Reading fails after the last octet, for the given reason. -/
  | failed (reason : String)
deriving DecidableEq, Repr

/-- The octet of a line end. -/
def newline : UInt8 := 0x0A

/-- An octet that means nothing around a request: space, tab, line end, form
    feed and return. -/
def isPadding (b : UInt8) : Bool :=
  b == 0x20 || b == 0x09 || b == 0x0A || b == 0x0C || b == 0x0D

/-- A line without the padding around it. -/
def trimPadding (line : List UInt8) : List UInt8 :=
  ((line.dropWhile isPadding).reverse.dropWhile isPadding).reverse

/-- What comes of reading a line. -/
inductive LineRead where
  /-- Nothing was left to read. -/
  | ended
  /-- A line, with its line end if it has one, and what is left behind it. -/
  | line (octets rest : List UInt8)
  /-- Reading failed before the line was complete. -/
  | failed (reason : String)

/-- Reads up to the next line end, or up to the end of the input. -/
def readLine (input : List UInt8) (ending : InputEnd) : LineRead :=
  match input.dropWhile (· != newline) with
  | b :: rest => .line (input.takeWhile (· != newline) ++ [b]) rest
  | [] =>
    match ending with
    | .ended => if input.isEmpty then .ended else .line input []
    | .failed reason => .failed reason

/-- Reading a line leaves less to read. -/
theorem length_lt_of_readLine {input line rest : List UInt8} {ending : InputEnd}
    (h : readLine input ending = .line line rest) : rest.length < input.length := by
  unfold readLine at h
  split at h
  · next b more hdrop =>
    -- A line end was taken off with what stands before it.
    have hsuffix : (b :: more).length ≤ input.length :=
      hdrop ▸ (List.dropWhile_sublist (· != newline)).length_le
    rw [LineRead.line.injEq] at h
    rw [← h.2]
    exact hsuffix
  · split at h
    · split at h
      · exact absurd h (by simp only [reduceCtorEq, not_false_eq_true])
      · next hne =>
        rw [LineRead.line.injEq] at h
        rw [← h.2]
        exact List.length_pos_iff.mpr fun hnil => hne (List.isEmpty_iff.mpr hnil)
    · exact absurd h (by simp only [reduceCtorEq, not_false_eq_true])

/-! ## Output -/

/-- The response and the events of a reply as lines of text. -/
def Reply.chars (r : Reply) : List Char :=
  r.response.toJson.chars ++ ['\n'] ++ r.events.flatMap fun e => e.chars ++ ['\n']

/-- What a reply puts out. -/
def Reply.chunk (r : Reply) : List UInt8 := Utf8.encode r.chars

/-- What comes of putting something out. -/
structure Put where
  /-- The octets that the output took. -/
  taken : List UInt8
  /-- The room that is left in the output, unless it refused the other octets. -/
  room? : Option (Option Nat)

/-- Goes on in the room that is left, if the output refused nothing. -/
def Put.andThen (p : Put) (next : Option Nat → Put) : Put :=
  match p.room? with
  | none => p
  | some room => ⟨p.taken ++ (next room).taken, (next room).room?⟩

/-- Puts octets out as far as there is room; without a number there is room for
    everything. -/
def put (room : Option Nat) (octets : List UInt8) : Put :=
  match room with
  | none => ⟨octets, some none⟩
  | some left =>
    if left < octets.length then ⟨octets.take left, none⟩
    else ⟨octets, some (some (left - octets.length))⟩

/-! ## Turns -/

/-- A text as a line of the output. -/
def outputLine (text : List Char) : List UInt8 := Utf8.encode (text ++ ['\n'])

/-- The lines that go out for a reply: the response, and behind it the events
    that wait and those of the reply. -/
def Reply.lines (r : Reply) (waiting : List Event) : List (List UInt8) :=
  outputLine r.response.toJson.chars :: (waiting ++ r.events).map fun e => outputLine e.chars

/-- What a session that is served talks to. -/
structure Port (m : Type → Type) where
  /-- The next line, with its line end if it has one; nothing when the input has
      ended; or the reason for which reading failed. -/
  read : m (Except String (Option (List UInt8)))
  /-- Puts octets out, and gives the reason when they are refused. -/
  put : List UInt8 → m (Option String)
  /-- Logs entries. -/
  tell : List Entry → m Unit

/-- Puts out one text after the other, until one is refused. -/
def Port.putAll {m : Type → Type} [Monad m] (port : Port m) : List (List UInt8) → m (Option String)
  | [] => return none
  | octets :: rest => do
    match ← port.put octets with
    | none => port.putAll rest
    | some reason => return some reason

/-- Why serving is over. -/
inductive Stop where
  | inputEnded
  | inputFailed (reason : String)
  | clientGone (reason : String)

namespace Stop

/-- The entries about the end of serving. -/
def log : Stop → List Entry
  | .inputEnded => []
  | .inputFailed reason => [⟨.error, s!"Failed to read request: {reason}"⟩]
  | .clientGone reason => [⟨.warn, s!"Client stopped reading responses: {reason}"⟩]

/-- The client took all that was put out. -/
def delivered : Stop → Bool
  | .clientGone _ => false
  | _ => true

/-- The session ended well: the input ended, or the client stopped reading. -/
def well : Stop → Bool
  | .inputFailed _ => false
  | _ => true

end Stop

/-- What comes of a turn. -/
inductive Turn where
  /-- The session goes on, and events wait. -/
  | next (s : Session) (waiting : List Event)
  /-- Serving is over. -/
  | over (s : Session) (stop : Stop)

namespace Session

section Port

variable {m : Type → Type} [Monad m]

/-- Ends serving, with the entries about it. -/
def stopOn (s : Session) (port : Port m) (stop : Stop) : m Turn := do
  port.tell stop.log
  return .over s stop

/-- One turn of serving: a line is read, and its request is answered. The events
    that wait go out behind the response, and then none waits any more. -/
def turnOn (s : Session) (port : Port m) (waiting : List Event) : m Turn := do
  match ← port.read with
  | .error reason => s.stopOn port (.inputFailed reason)
  | .ok none => s.stopOn port .inputEnded
  | .ok (some line) =>
    let request := trimPadding line
    if request.isEmpty then return .next s waiting
    else
      let reply := s.answerOctets request
      port.tell reply.log
      match ← port.putAll (reply.lines waiting) with
      | none => return .next reply.session []
      | some reason => reply.session.stopOn port (.clientGone reason)

end Port

end Session

/-! ## Serving -/

/-- The reason for which an output that is full refuses more. -/
def outputClosed : String := "output closed"

/-- The streams of a session, and its log: what is left of the input, how that
    ends, the room that is left in the output, and what was put out and logged. -/
structure Wire where
  input : List UInt8
  ending : InputEnd
  room : Option Nat
  output : List UInt8
  log : List Entry

namespace Wire

/-- Reads a line. -/
def read (w : Wire) : Except String (Option (List UInt8)) × Wire :=
  match readLine w.input w.ending with
  | .ended => (.ok none, w)
  | .failed reason => (.error reason, w)
  | .line line rest => (.ok (some line), { w with input := rest })

/-- Puts octets out. Where some were refused, no room is left. -/
def put (w : Wire) (octets : List UInt8) : Option String × Wire :=
  let out := SourceMarkers.put w.room octets
  match out.room? with
  | none => (some outputClosed, { w with output := w.output ++ out.taken, room := some 0 })
  | some room => (none, { w with output := w.output ++ out.taken, room := room })

/-- Logs entries. -/
def tell (w : Wire) (entries : List Entry) : Wire := { w with log := w.log ++ entries }

/-- A wire as a port. -/
def port : Port (StateM Wire) where
  read := modifyGet read
  put octets := modifyGet fun w => w.put octets
  tell entries := modify fun w => w.tell entries

theorem run_read (w : Wire) : port.read.run w = w.read := rfl

theorem run_put (w : Wire) (octets : List UInt8) : (port.put octets).run w = w.put octets := rfl

theorem run_tell (w : Wire) (entries : List Entry) :
    (port.tell entries).run w = ((), w.tell entries) := rfl

theorem input_put (w : Wire) (octets : List UInt8) : (w.put octets).2.input = w.input := by
  unfold put
  simp only []
  split <;> rfl

/-- Putting out leaves what is to be read. -/
theorem input_putAll (w : Wire) (texts : List (List UInt8)) :
    ((port.putAll texts).run w).2.input = w.input := by
  induction texts generalizing w with
  | nil => rfl
  | cons octets rest ih =>
    have hput := w.input_put octets
    rw [Port.putAll, run_bind, run_put]
    rcases hrun : w.put octets with ⟨refused?, after⟩
    rw [hrun] at hput
    cases refused? with
    | none => exact (ih after).trans hput
    | some reason => exact hput

end Wire

/-- What comes of serving. -/
structure Service where
  session : Session
  output : List UInt8
  /-- The client took all that was put out. -/
  delivered : Bool
  log : List Entry

/-- What comes of serving after something was put out and logged. -/
def Service.after (service : Service) (output : List UInt8) (log : List Entry) : Service :=
  { service with output := output ++ service.output, log := log ++ service.log }

namespace Session

/-- One turn of serving on a wire. -/
def turn (s : Session) (waiting : List Event) (w : Wire) : Turn × Wire :=
  (s.turnOn Wire.port waiting).run w

/-- What a turn does on a wire, by the line that is read. -/
theorem turn_eq (s : Session) (waiting : List Event) (w : Wire) :
    s.turn waiting w =
      match readLine w.input w.ending with
      | .ended => (.over s .inputEnded, w.tell [])
      | .failed reason => (.over s (.inputFailed reason), w.tell (Stop.inputFailed reason).log)
      | .line line rest =>
        if (trimPadding line).isEmpty then (.next s waiting, { w with input := rest })
        else
          let reply := s.answerOctets (trimPadding line)
          match (Wire.port.putAll (reply.lines waiting)).run
              (Wire.tell { w with input := rest } reply.log) with
          | (none, w) => (.next reply.session [], w)
          | (some reason, w) =>
            (.over reply.session (.clientGone reason), w.tell (Stop.clientGone reason).log) := by
  unfold turn turnOn
  rw [run_bind, Wire.run_read, Wire.read]
  cases readLine w.input w.ending with
  | ended => rfl
  | failed reason => rfl
  | line line rest =>
    simp only []
    split
    · rfl
    · rw [run_bind, Wire.run_tell, run_bind]
      generalize (Wire.port.putAll _).run _ = out
      rcases out with ⟨refused?, after⟩
      cases refused? with
      | none => rfl
      | some reason => rfl

/-- A turn that another one follows leaves less to read. -/
theorem length_lt_of_turn {s next : Session} {waiting left : List Event} {w after : Wire}
    (h : s.turn waiting w = (.next next left, after)) : after.input.length < w.input.length := by
  rw [turn_eq] at h
  split at h
  · exact absurd h (by simp only [Prod.mk.injEq, reduceCtorEq, false_and, not_false_eq_true])
  · exact absurd h (by simp only [Prod.mk.injEq, reduceCtorEq, false_and, not_false_eq_true])
  · next line rest hread =>
    have hless := length_lt_of_readLine hread
    split at h
    · rw [Prod.mk.injEq] at h
      rw [← h.2]
      exact hless
    · -- What was put out makes no difference to the input.
      have hinput := Wire.input_putAll (Wire.tell { w with input := rest }
        (s.answerOctets (trimPadding line)).log) ((s.answerOctets (trimPadding line)).lines waiting)
      simp only [] at h
      split at h
      · next hrun =>
        rw [Prod.mk.injEq] at h
        rw [hrun, h.2] at hinput
        rw [hinput]
        exact hless
      · exact absurd h (by simp only [Prod.mk.injEq, reduceCtorEq, false_and, not_false_eq_true])

/-- Serves what is left of an input, turn by turn. -/
def serveFrom (s : Session) (room : Option Nat) (waiting : List Event) (input : List UInt8)
    (ending : InputEnd) : Service :=
  match h : s.turn waiting ⟨input, ending, room, [], []⟩ with
  | (.over s stop, w) => ⟨s, w.output, stop.delivered, w.log⟩
  | (.next s waiting, w) =>
    have := length_lt_of_turn h
    (serveFrom s w.room waiting w.input ending).after w.output w.log
termination_by input.length

/-- Serves a whole input. -/
def serve (s : Session) (room : Option Nat) (input : List UInt8) (ending : InputEnd) :
    Service :=
  s.serveFrom room [] input ending

end Session

/-- The session ended well: the input ended, or the client stopped reading. -/
def Service.endedWell (service : Service) (ending : InputEnd) : Bool :=
  !service.delivered || ending == .ended

end SourceMarkers
