import SourceMarkers.Proofs.Session.Restart

/-!
# What the client knows

A client that reads the output line by line can always tell what the session
would show. It keeps the view of the last event, or of the last answer to a
request for the view, whichever came later. As every change is announced after
it was made, and before the next request is looked at, that view is the present
one whenever the output of a request was read to its end. A request that
announces nothing changed nothing that can be seen, and asking for the view
only repeats what the client holds.

The client knows what it sent. Each request is answered by one message without
an event, so it can tell which response belongs to which request; events come
behind the response of the request that made them.

## Main definitions

* `Reply.messages`, `Session.messages`: The output as values, one for each line.
* `Client`, `Client.read`: What a client keeps while it reads.
* `Client.Coherent`: The client holds the present view, or none yet.
* `Client.GivesView`, `Client.GaveView`: There is a view in what is put out for a
  request, or for some of them.

## Theorems

* `Session.serve_output_eq`: The output is the text of the messages.
* `Client.answerOctets_of_asksForView`: The answer to a request for the view.
* `Client.readAll_messages_of_givesView`, `Client.readAll_messages_of_not_givesView`:
  Reading the output of one request.
* `Client.coherent_messages`: Reading the output of some requests.
* `Client.coherent_serve`: Reading the output of a session.
-/

namespace SourceMarkers

open Json (Value)

/-! ## The output in messages -/

/-- What a reply puts out, one value for each line. -/
def Reply.messages (r : Reply) : List Value := r.response.toJson :: r.events.map Event.toJson

/-- Messages as they are put out. -/
def textOfMessages (messages : List Value) : List UInt8 :=
  Utf8.encode (messages.flatMap fun v => v.chars ++ ['\n'])

theorem textOfMessages_append (front back : List Value) :
    textOfMessages (front ++ back) = textOfMessages front ++ textOfMessages back := by
  unfold textOfMessages
  rw [List.flatMap_append, Utf8.encode_append]

theorem Reply.chunk_eq (r : Reply) : r.chunk = textOfMessages r.messages := by
  unfold Reply.chunk Reply.chars textOfMessages Reply.messages
  rw [List.flatMap_cons, List.flatMap_map]
  rfl

namespace Session

/-- What a run puts out, one value for each line. -/
def messages (s : Session) (lines : List (List UInt8)) : List Value :=
  (s.replies lines).flatMap Reply.messages

theorem messages_append (s : Session) (front back : List (List UInt8)) :
    s.messages (front ++ back) = s.messages front ++ (s.after front).messages back := by
  unfold messages
  rw [replies_append, List.flatMap_append]

theorem chunks_eq (s : Session) (lines : List (List UInt8)) :
    s.chunks lines = textOfMessages (s.messages lines) := by
  unfold chunks messages
  induction lines generalizing s with
  | nil => rfl
  | cons line rest ih =>
    rw [replies, List.flatMap_cons, List.flatMap_cons, textOfMessages_append, Reply.chunk_eq, ih]

/-- The output of a session is the text of its messages, as far as the client
    takes it. -/
theorem serve_output_eq (s : Session) (room : Option Nat) (input : List UInt8)
    (ending : InputEnd) :
    (s.serve room input ending).output =
      let text := textOfMessages (s.messages (requestLines input ending))
      match room with
      | none => text
      | some room => text.take room := by
  -- How the input ended matters for what is said in the log only.
  have hserve : (s.serve room input ending).output =
      (s.serveLines room (requestLines input ending)).output := by
    rw [serve_eq_serveLines]
    exact (atInputEnd_fields _ ending).2.1
  rw [hserve, serveLines_output, chunks_eq]
  cases room with
  | none => rfl
  | some room => exact taken_put room _

end Session

/-! ## The client -/

/-- What a client knows: the requests that it sent and that are not answered
    yet, and the view that it holds. -/
structure Client where
  pending : List (List UInt8)
  held : Option Value

namespace Client

/-- The line is a request for the view. -/
def asksForView (line : List UInt8) : Bool :=
  match Request.ofLine? line with
  | some r => r.method == "get_markers_state"
  | none => false

/-- The view of an event, when the message is one. -/
def announcedView? (message : Value) : Option Value :=
  match message.member? "event" with
  | some (.string name) =>
    if name = "markers_changed" then (message.member? "data").bind (Value.member? "markers_state")
    else none
  | _ => none

/-- Reads a message: an event, or the response to the first request that is not
    answered yet. -/
def read (c : Client) (message : Value) : Client :=
  match announcedView? message with
  | some v => { c with held := some v }
  | none =>
    match c.pending with
    | [] => c
    | line :: rest =>
      ⟨rest, if asksForView line then (message.member? "result").or c.held else c.held⟩

/-- Reads some messages in order. -/
def readAll (c : Client) (messages : List Value) : Client := messages.foldl read c

/-- The client holds the view of the session, or none yet. -/
def Coherent (c : Client) (s : Session) : Prop := ∀ v, c.held = some v → v = s.view

theorem announcedView?_event (e : Event) : announcedView? e.toJson = some e.view := by
  rw [Event.toJson_eq]
  rfl

theorem announcedView?_response (r : Response) : announcedView? r.toJson = none := by
  unfold announcedView?
  rw [r.member?_event]

/-- Reading a response takes the first request off, and the view comes from the
    response when it was asked for. -/
theorem read_response (line : List UInt8) (rest : List (List UInt8)) (held : Option Value)
    (r : Response) :
    read ⟨line :: rest, held⟩ r.toJson =
      ⟨rest, if asksForView line then (r.toJson.member? "result").or held else held⟩ := by
  unfold read
  rw [announcedView?_response]

/-- Reading an event replaces the view. -/
theorem read_event (c : Client) (e : Event) : c.read e.toJson = { c with held := some e.view } := by
  unfold read
  rw [announcedView?_event]

/-- A request for the view is answered with the view, and that is all. -/
theorem answerOctets_of_asksForView (s : Session) (line : List UInt8)
    (h : asksForView line = true) :
    (s.answerOctets line).session = s ∧ (s.answerOctets line).events = [] ∧
      ∃ id, (s.answerOctets line).response = ⟨id, .ok s.view⟩ := by
  unfold asksForView at h
  cases hline : Request.ofLine? line with
  | none =>
    rw [hline] at h
    exact absurd h Bool.false_ne_true
  | some r =>
    rw [hline] at h
    have hmethod : r.method = "get_markers_state" := beq_iff_eq.mp h
    have hcommand := s.command_of_ofLine? line r hline
    rw [hmethod] at hcommand
    rcases s.answerOctets_of_ok line .getView hcommand with ⟨hsession, hevents, hresponse⟩
    exact ⟨hsession, hevents, _, hresponse⟩

/-- The output of a line holds a view: the line asked for it, or it was announced. -/
def GivesView (s : Session) (line : List UInt8) : Prop :=
  asksForView line = true ∨ (s.answerOctets line).events ≠ []

/-- What the client knows when it has read the output of one request: if there was a
    view in it, that was the view of the session after the request. -/
theorem readAll_messages_of_givesView (s : Session) (line : List UInt8)
    (rest : List (List UInt8)) (held : Option Value) (hattached : s.attached = true)
    (h : GivesView s line) :
    readAll ⟨line :: rest, held⟩ (s.answerOctets line).messages =
      ⟨rest, some (s.answerOctets line).session.view⟩ := by
  unfold readAll Reply.messages
  rw [List.foldl_cons, read_response]
  rcases h with hasks | hevents
  · -- The view was asked for, and is the result.
    rcases answerOctets_of_asksForView s line hasks with ⟨hsession, hevents, id, hresponse⟩
    rw [hresponse, (Response.members_ok id s.view).2, hevents, hsession, if_pos hasks]
    rfl
  · -- The event came with the view, behind whatever the response was.
    cases s.answerOctets_comes line with
    | refused id f hresponse hsession hnone => exact absurd hnone hevents
    | shown r hline hmethod hresponse hsession hnone => exact absurd hnone hevents
    | changed r hline hmethod select hselect hresponse hone =>
      rw [if_pos hattached] at hone
      rw [hone, List.map_singleton, List.foldl_cons, List.foldl_nil, read_event]

/-- If there was none, the client holds what it held, and nothing was changed that it
    could see. -/
theorem readAll_messages_of_not_givesView (s : Session) (line : List UInt8)
    (rest : List (List UInt8)) (held : Option Value) (hattached : s.attached = true)
    (h : ¬ GivesView s line) :
    readAll ⟨line :: rest, held⟩ (s.answerOctets line).messages = ⟨rest, held⟩ ∧
      (s.answerOctets line).session.view = s.view := by
  rcases not_or.mp h with ⟨hasks, hevents⟩
  have hnone := not_not.mp hevents
  constructor
  · unfold readAll Reply.messages
    rw [List.foldl_cons, read_response, hnone, if_neg hasks]
    rfl
  · cases s.answerOctets_comes line with
    | refused id f hresponse hsession _ => rw [hsession]
    | shown r hline hmethod hresponse hsession _ => rw [hsession]
    | changed r hline hmethod select hselect hresponse hone =>
      rw [if_pos hattached, hnone] at hone
      exact absurd hone.symm (List.cons_ne_nil _ _)

/-- A view was announced just when one of the messages is an event. -/
theorem exists_event_message_iff (reply : Reply) :
    (∃ message ∈ reply.messages, message.member? "event" = some (.string "markers_changed")) ↔
      reply.events ≠ [] := by
  unfold Reply.messages
  constructor
  · rintro ⟨message, hmem, hevent⟩ hnone
    rw [hnone, List.map_nil, List.mem_singleton] at hmem
    rw [hmem, reply.response.member?_event] at hevent
    exact absurd hevent (by simp only [reduceCtorEq, not_false_eq_true])
  · intro h
    rcases List.exists_mem_of_ne_nil _ h with ⟨e, he⟩
    refine ⟨e.toJson, List.mem_cons_of_mem _ (List.mem_map_of_mem he), ?_⟩
    rw [Event.toJson_eq]
    rfl

/-- A view was put out for some of the requests: one of them asked for it, or one of
    the messages is an event. -/
def GaveView (s : Session) (lines : List (List UInt8)) : Prop :=
  (∃ line ∈ lines, asksForView line = true) ∨
    ∃ message ∈ s.messages lines, message.member? "event" = some (.string "markers_changed")

theorem not_gaveView_nil (s : Session) : ¬ GaveView s [] := by
  rintro (⟨line, hmem, _⟩ | ⟨message, hmem, _⟩)
  · exact absurd hmem List.not_mem_nil
  · exact absurd hmem List.not_mem_nil

theorem gaveView_cons_iff (s : Session) (line : List UInt8) (rest : List (List UInt8)) :
    GaveView s (line :: rest) ↔ GivesView s line ∨ GaveView (s.answerOctets line).session rest := by
  have hmessages : s.messages (line :: rest) =
      (s.answerOctets line).messages ++ (s.answerOctets line).session.messages rest := rfl
  unfold GaveView GivesView
  rw [hmessages, ← exists_event_message_iff]
  simp only [List.mem_cons, List.mem_append, or_and_right, exists_or, exists_eq_left, or_assoc,
    or_left_comm]

/-- After the output of some requests was read, the client holds the view of the
    session after them, or none yet; and it holds one just when it held one before, or
    one was put out. -/
theorem coherent_messages (s : Session) (lines rest : List (List UInt8)) (held : Option Value)
    (hattached : s.attached = true) (h : Coherent ⟨lines ++ rest, held⟩ s) :
    let client := readAll ⟨lines ++ rest, held⟩ (s.messages lines)
    client.pending = rest ∧ client.Coherent (s.after lines) ∧
      (client.held.isSome = true ↔ held.isSome = true ∨ GaveView s lines) := by
  induction lines generalizing s held with
  | nil => exact ⟨rfl, h, (or_iff_left (not_gaveView_nil s)).symm⟩
  | cons line more ih =>
    have hattached' : (s.answerOctets line).session.attached = true :=
      (Session.fixed_after s [line]).2.trans hattached
    have hsplit : readAll ⟨line :: more ++ rest, held⟩ (s.messages (line :: more)) =
        readAll (readAll ⟨line :: (more ++ rest), held⟩ (s.answerOctets line).messages)
          ((s.answerOctets line).session.messages more) := List.foldl_append
    simp only [hsplit, Session.after_cons, gaveView_cons_iff]
    -- What is read next starts from the client after this request.
    by_cases hgives : GivesView s line
    · rw [readAll_messages_of_givesView s line _ held hattached hgives]
      rcases ih (s.answerOctets line).session _ hattached' fun v hv => (Option.some.inj hv).symm with
        ⟨hpending, hcoherent, hheld⟩
      refine ⟨hpending, hcoherent, ?_⟩
      rw [hheld]
      exact iff_of_true (Or.inl rfl) (Or.inr (Or.inl hgives))
    · rcases readAll_messages_of_not_givesView s line (more ++ rest) held hattached hgives with
        ⟨hread, hview⟩
      rw [hread, or_iff_right hgives]
      exact ih (s.answerOctets line).session held hattached' fun v hv => (h v hv).trans hview.symm

/-- A client that reads what a session puts out, and that has read the output of
    the first `n` requests to its end, holds the view that the session has at
    that point, or none yet; it holds one as soon as it has read an answer to a
    request for the view, or an event.

    The same is true of any further line. Without an event it does not change the
    view. A request for the view is answered with the view in the member `result`,
    and this is the one that is held, if one is. And when the output of such a
    request, or one with an event, was read, the client holds the view. -/
theorem coherent_serve (shorthand : Shorthand) (store : Store) (t : FileTree)
    (room : Option Nat) (input : List UInt8) (ending : InputEnd) (n : Nat) :
    let s := (Session.start shorthand store t).value
    let requests := requestLines input ending
    let served := s.after (requests.take n)
    let client := readAll ⟨requests, none⟩ (s.messages (requests.take n))
    (s.serve room input ending).output <+: textOfMessages (s.messages requests) ∧
      (s.serve none input ending).output = textOfMessages (s.messages requests) ∧
      s.messages (requests.take n) <+: s.messages requests ∧
      client.pending = requests.drop n ∧
      client.Coherent served ∧
      (client.held = some served.view ↔ GaveView s (requests.take n)) ∧
      ∀ line,
        let reply := served.answerOctets line
        let result := reply.response.toJson.member? "result"
        (reply.events = [] → reply.session.view = served.view) ∧
        (asksForView line = true →
          result = some served.view ∧ ∀ v, client.held = some v → result = some v) ∧
        (asksForView line = true ∨ reply.events ≠ [] →
          (readAll ⟨[line], client.held⟩ reply.messages).held = some reply.session.view) := by
  intro s requests served client
  have hstart := Session.kept_start shorthand store t
  have hattached : s.attached = true := hstart.2.2
  have hcut : requests.take n ++ requests.drop n = requests := List.take_append_drop n requests
  have hread := coherent_messages s (requests.take n) (requests.drop n) none hattached
    fun v hv => absurd hv (by simp only [reduceCtorEq, not_false_eq_true])
  rw [hcut] at hread
  rcases hread with ⟨hpending, hcoherent, hheld⟩
  have hserved : served.attached = true := (Session.fixed_after s _).2.trans hattached
  refine ⟨?_, Session.serve_output_eq s none input ending, ?_, hpending, hcoherent, ?_,
    fun line => ⟨fun hnone => ?_, fun hasks => ?_, fun hgives => ?_⟩⟩
  · -- A client that stops reading early has read the start of the text.
    rw [Session.serve_output_eq s room input ending]
    cases room with
    | none => exact List.prefix_rfl
    | some room => exact List.take_prefix room _
  · -- The messages of the first requests come first.
    have happend := Session.messages_append s (requests.take n) (requests.drop n)
    rw [hcut] at happend
    rw [happend]
    exact List.prefix_append _ _
  · -- What is held, if anything, is the present view.
    have hgave : client.held.isSome = true ↔ GaveView s (requests.take n) :=
      hheld.trans (or_iff_right Bool.false_ne_true)
    rw [← hgave, Option.isSome_iff_exists]
    constructor
    · intro h
      exact ⟨_, h⟩
    · rintro ⟨v, hv⟩
      rw [← hcoherent v hv]
      exact hv
  · by_cases hasks : asksForView line = true
    · rw [(answerOctets_of_asksForView served line hasks).1]
    · exact (readAll_messages_of_not_givesView served line [] none hserved
        (not_or.mpr ⟨hasks, not_not.mpr hnone⟩)).2
  · rcases answerOctets_of_asksForView served line hasks with ⟨_, _, id, hresponse⟩
    have hresult := (Response.members_ok id served.view).2
    rw [← hresponse] at hresult
    refine ⟨hresult, fun v hv => ?_⟩
    rw [hcoherent v hv]
    exact hresult
  · exact congrArg Client.held
      (readAll_messages_of_givesView served line [] client.held hserved hgives)

end Client

end SourceMarkers
