import SourceMarkers.Proofs.Json.Plain
import SourceMarkers.Proofs.Session.Classes
import SourceMarkers.Proofs.Session.Mirror

/-!
# The output in lines

Whatever clients send, what a session puts out is a list of lines, one for each
response and one for each event, and a client that cuts the output at its line
ends gets them apart. A line is text without control characters. It is read by
the reader of the session itself as the value that was written, so nothing that
was handed back or named in a message is lost or runs into what comes next.

The identifier of a response is whatever a client sent, and only its doubles may
change when they are written and read. It came from inside of a request, so it
is nested less deep than the reader goes, and it still is inside of a response.
All the rest of a response is made by the session.

## Main definitions

* `lineOf`, `valueOf?`: The line of a value, and the value of a line.
* `Event.value`: An event as it is read, its members in order.
* `Reply.Legible`: The parts of a reply can be read back.

## Theorems

* `Asked.given_id`: The identifier of a response is not nested too deep.
* `Reply.Legible.response`, `Reply.Legible.event`: The lines of a reply are read
  back.
* `Session.legible_answerOctets`, `Session.forall_mem_replies`: One line, and a
  run.
* `Session.serve_framed`: The output of a session.
-/

namespace SourceMarkers

open Json (Value Mismatch)

/-! ## Lines -/

/-- The line of a value, without its line end. -/
def lineOf (v : Value) : List UInt8 := Utf8.encode v.chars

/-- The value of a line, if it is a JSON text. -/
def valueOf? (line : List UInt8) : Option Value :=
  match Utf8.decode line with
  | .error _ => none
  | .ok cs => (Json.parseChars cs).toOption

/-- A line holds no control character, and so no line end. -/
theorem not_control_of_mem_lineOf (v : Value) : ∀ b ∈ lineOf v, 0x20 ≤ b.toNat :=
  (Json.plain_chars v).octets

theorem newline_not_mem_lineOf (v : Value) : newline ∉ lineOf v := by
  intro hmem
  have hcontrol := not_control_of_mem_lineOf v newline hmem
  exact absurd hcontrol (by decide)

/-- The line of a readable value is read as that value. -/
theorem valueOf?_lineOf (v : Value) (h : v.Readable Json.depthLimit) :
    valueOf? (lineOf v) = some v := by
  unfold valueOf? lineOf
  rw [Utf8.decode_encode]
  simp only [Json.parseChars_chars v h, Except.toOption]

/-- Messages are put out as lines. -/
theorem textOfMessages_eq (messages : List Value) :
    textOfMessages messages = (messages.map lineOf).flatMap fun line => line ++ [newline] := by
  induction messages with
  | nil => rfl
  | cons v rest ih =>
    have hfirst : textOfMessages [v] = lineOf v ++ [newline] := by
      simp only [textOfMessages, List.flatMap_singleton, Utf8.encode_append]
      rfl
    rw [← List.singleton_append, textOfMessages_append, hfirst, ih]
    rfl

/-! ## Identifiers -/

/-- The identifier of a request is one of its parts. -/
theorem Request.given_id {limit : Nat} {v : Value} {r : Request} (hv : v.Given (limit + 1))
    (h : ofJson v = .ok r) : r.id.Given limit := by
  cases v with
  | object held =>
    have hmembers : ofMembers held = .ok r := h
    by_cases hmethod : ∃ method, held.lookup "method" = some (.string method)
    · rcases hmethod with ⟨method, hmethod⟩
      rw [ofMembers_of_method held method hmethod, Except.ok.injEq] at hmembers
      rw [← hmembers]
      cases hid : held.lookup "id" with
      | none => exact Value.given_null limit
      | some id => exact hv.member? hid
    · rcases ofMembers_of_no_method held (not_exists.mp hmethod) with ⟨m, hm⟩
      rw [hm] at hmembers
      exact absurd hmembers (by simp only [reduceCtorEq, not_false_eq_true])
  | array items =>
    rcases Json.bind_eq_ok h with ⟨⟨method, rest⟩, _, hrest⟩
    rcases Json.bind_eq_ok hrest with ⟨_, _, hrequest⟩
    rw [← Except.ok.inj hrequest]
    cases items with
    | nil => exact Value.given_null limit
    | cons id more => exact (Value.given_array_iff limit _).mp hv id List.mem_cons_self
  | _ => exact absurd h (by simp only [ofJson, reduceCtorEq, not_false_eq_true])

/-- The identifier that a line is answered with is nested less deep than the
    reader goes. -/
theorem Asked.given_id (s : Shorthand) (line : List UInt8) :
    (ofLine s line).id.Given (Json.depthLimit - 1) := by
  unfold ofLine
  cases Utf8.decode line with
  | error f => exact Value.given_null _
  | ok cs =>
    simp only []
    cases hparse : Json.parseChars cs with
    | error f => exact Value.given_null _
    | ok v =>
      have hv : v.Given (Json.depthLimit - 1 + 1) := Json.given_of_parseChars cs v hparse
      simp only []
      cases hrequest : Request.ofJson v with
      | error m =>
        -- What is no request may still have the member.
        cases hid : v.member? "id" with
        | none => exact Value.given_null _
        | some id => exact hv.member? hid
      | ok r => exact Request.given_id hv hrequest

/-! ## Replies -/

theorem Catalog.readable_view (s : Shorthand) (c : Catalog) : (c.view s).Readable 4 := by
  unfold view
  cases c.active? with
  | none =>
    refine Value.readable_ofMembers 3 _ ?_
    simp only [List.forall_mem_cons]
    exact ⟨Value.readable_null 3, Value.readable_null 3, List.forall_mem_nil _⟩
  | some set =>
    have hnames : (Value.array (c.names.map Value.string)).Readable 3 := by
      rw [Value.readable_array_iff, List.forall_mem_map]
      exact fun name _ => Value.readable_string 2 name
    refine Value.readable_ofMembers 3 _ ?_
    simp only [List.forall_mem_cons]
    exact ⟨hnames, set.readable_toJson s, List.forall_mem_nil _⟩

theorem RequestFault.readable_toJson (f : RequestFault) : f.toJson.Readable 1 := by
  have hcode : Value.FitsWhole f.code := by
    unfold Value.FitsWhole RequestFault.code
    split <;> decide
  refine Value.readable_ofMembers 0 _ ?_
  simp only [List.forall_mem_cons]
  exact ⟨Value.readable_ofInt 0 _ hcode, Value.readable_string 0 _, List.forall_mem_nil _⟩

/-- An event as it is read: its members are in order. -/
def Event.value (e : Event) : Value :=
  .ofMembers [("event", .string Event.name), ("data", e.data)]

theorem Event.readable_data (e : Event) (h : e.view.Readable 4) : e.data.Readable 5 := by
  have hselect : Value.FitsWhole e.select.code := by
    unfold Value.FitsWhole
    cases e.select <;> decide
  refine Value.readable_ofMembers 4 _ ?_
  simp only [List.forall_mem_cons]
  exact ⟨h, Value.readable_ofInt 4 _ hselect, List.forall_mem_nil _⟩

namespace Reply

/-- The parts of a reply can be read back, but for the doubles in the
    identifier. -/
structure Legible (r : Reply) : Prop where
  id : r.response.id.Given (Json.depthLimit - 1)
  result : ∀ v, r.response.outcome = .ok v → v.Readable 4
  views : ∀ e ∈ r.events, e.view.Readable 4

/-- The line of a response is read as the response. -/
theorem Legible.response {r : Reply} (h : r.Legible) (hid : r.response.id.DoubleFree) :
    valueOf? (lineOf r.response.toJson) = some r.response.toJson := by
  have hreadable : r.response.toJson.Readable (Json.depthLimit - 1 + 1) := by
    unfold Response.toJson
    split
    · next result houtcome =>
      refine Value.readable_ofMembers _ _ ?_
      simp only [List.forall_mem_cons]
      exact ⟨h.id.readable hid, (h.result result houtcome).mono (by decide), List.forall_mem_nil _⟩
    · next f _ =>
      refine Value.readable_ofMembers _ _ ?_
      simp only [List.forall_mem_cons]
      exact ⟨h.id.readable hid, f.readable_toJson.mono (by decide), List.forall_mem_nil _⟩
  exact valueOf?_lineOf _ hreadable

/-- The line of an event is read as the event. -/
theorem Legible.event {r : Reply} (h : r.Legible) (e : Event) (he : e ∈ r.events) :
    valueOf? (lineOf e.toJson) = some e.value := by
  have hparts : ∀ m ∈ [("event", Value.string Event.name), ("data", e.data)],
      m.2.Readable (Json.depthLimit - 1) := by
    simp only [List.forall_mem_cons]
    exact ⟨Value.readable_string _ _, (e.readable_data (h.views e he)).mono (by decide),
      List.forall_mem_nil _⟩
  unfold valueOf? lineOf Event.toJson
  rw [Utf8.decode_encode]
  simp only [Json.parseChars_object _ hparts, Except.toOption]
  rfl

end Reply

namespace Session

/-- Whatever the line, the reply can be read back. -/
theorem legible_answerOctets (s : Session) (line : List UInt8) : (s.answerOctets line).Legible := by
  have hid : (s.answerOctets line).response.id.Given (Json.depthLimit - 1) := by
    rcases response_answerOctets s line with ⟨outcome, hresponse, _⟩
    rw [hresponse]
    exact Asked.given_id s.shorthand line
  cases s.answerOctets_comes line with
  | refused id f hresponse _ hevents =>
    refine ⟨hid, fun v hv => ?_, fun e he => ?_⟩
    · rw [hresponse] at hv
      exact absurd hv (by simp only [reduceCtorEq, not_false_eq_true])
    · rw [hevents] at he
      exact absurd he List.not_mem_nil
  | shown r _ _ hresponse _ hevents =>
    refine ⟨hid, fun v hv => ?_, fun e he => ?_⟩
    · rw [hresponse] at hv
      rw [← Except.ok.inj hv]
      exact s.catalog.readable_view s.shorthand
    · rw [hevents] at he
      exact absurd he List.not_mem_nil
  | changed r _ _ select _ hresponse hevents =>
    refine ⟨hid, fun v hv => ?_, fun e he => ?_⟩
    · rw [hresponse] at hv
      rw [← Except.ok.inj hv]
      exact Value.readable_null 4
    · -- The only event holds the view after the change.
      have hview : e.view = (s.answerOctets line).session.view := by
        rw [hevents] at he
        split at he
        · rw [List.mem_singleton.mp he]
        · exact absurd he List.not_mem_nil
      rw [hview]
      exact Catalog.readable_view _ _

/-- What holds of the reply to any line holds of all replies of a run. -/
theorem forall_mem_replies {p : Reply → Prop} (h : ∀ (s : Session) line, p (s.answerOctets line))
    (s : Session) (lines : List (List UInt8)) : ∀ reply ∈ s.replies lines, p reply := by
  induction lines generalizing s with
  | nil => exact List.forall_mem_nil p
  | cons line rest ih => exact List.forall_mem_cons.mpr ⟨h s line, ih _⟩

/-- The output of a session is text in lines, the response to each request and
    behind it its events, each ended by a line end. Cutting the output at its
    line ends gives these lines; none of them holds a control character. Each is
    read as the response or the event that it was written from, a response if
    its identifier holds no double. -/
theorem serve_framed (s : Session) (input : List UInt8) (ending : InputEnd) :
    let replies := s.replies (requestLines input ending)
    let lines := (replies.flatMap Reply.messages).map lineOf
    let output := (s.serve none input ending).output
    (∃ text, Utf8.decode output = .ok text) ∧
      output = lines.flatMap (fun line => line ++ [newline]) ∧
      output.splitOn newline = lines ++ [[]] ∧
      (∀ line ∈ lines, ∀ b ∈ line, 0x20 ≤ b.toNat) ∧
      ∀ reply ∈ replies,
        (reply.response.id.DoubleFree →
          valueOf? (lineOf reply.response.toJson) = some reply.response.toJson) ∧
        ∀ e ∈ reply.events, valueOf? (lineOf e.toJson) = some e.value := by
  intro replies lines output
  have htext : output = textOfMessages (replies.flatMap Reply.messages) :=
    s.serve_output_eq none input ending
  have hlines : output = lines.flatMap fun line => line ++ [newline] := by
    rw [htext]
    exact textOfMessages_eq _
  have hplain : ∀ line ∈ lines, newline ∉ line := by
    rw [List.forall_mem_map]
    exact fun v _ => newline_not_mem_lineOf v
  refine ⟨?_, hlines, ?_, ?_, fun reply hreply => ?_⟩
  · rw [htext]
    exact ⟨_, Utf8.decode_encode _⟩
  · rw [hlines]
    exact splitOn_flatMap_append newline lines hplain
  · rw [List.forall_mem_map]
    exact fun v _ => not_control_of_mem_lineOf v
  · have hlegible := forall_mem_replies legible_answerOctets s _ reply hreply
    exact ⟨hlegible.response, hlegible.event⟩

end Session

end SourceMarkers
