import SourceMarkers.Proofs.Session.Asks
import SourceMarkers.Proofs.Session.Messages

/-!
# Requests are atomic

A line that is answered with an error leaves no trace: the session is as
before, and nothing is announced. There are four ways to fail, as the line may
be no text, no JSON text, no request, or a request with bad parameters, and all
of them come before the first change. A line that is answered with a result
was carried out in full. The request for the view then changed nothing; each
of the others made one announcement, of the view after its change.

Which of the two a line was answered with is read off the members of the response,
and what was announced off those of the event.

## Main definitions

* `Request.Selects`: The number of the choice that a request asks for.
* `Session.Comes`: What can come of a line.

## Theorems

* `Session.answerOctets_cases`: A line is refused, or a command is carried out.
* `Session.answerOctets_comes`: What can come of a line.
* `Session.answerOctets_atomic`: A line is refused without a trace, or carried
  out in full.
-/

namespace SourceMarkers

open Json (Value)

/-- The number of the choice that a request asks for: the second parameter of a
    set that is shown, or one when there is none, and zero otherwise. -/
def Request.Selects (r : Request) (number : Int) : Prop :=
  (r.method = "show_markers" ∧ ∃ items, r.params = .array items ∧
    match items[1]? with
    | none => number = 1
    | some v => v = .ofInt number) ∨
  (r.method ∈ ["markers_tab_closed", "update_active_marker_set", "clear_active_marker_set"] ∧
    number = 0)

namespace Command

/-- A command that makes an announcement makes it with the choice of the
    request; the only command without one gives the view. -/
theorem Asks.announced_cases {s : Shorthand} {r : Request} {c : Command}
    (h : Asks s r.method r.params c) :
    (r.method = "get_markers_state" ∧ c = .getView) ∨
      (r.method ≠ "get_markers_state" ∧
        ∃ select, c.announced = some select ∧ r.Selects select.code) := by
  rcases r with ⟨id, method, params⟩
  simp only [] at h ⊢
  cases h with
  | closeTab params =>
    exact Or.inr ⟨by decide, .none, rfl, Or.inr ⟨by simp only [List.mem_cons, true_or], rfl⟩⟩
  | activate name more =>
    refine Or.inr ⟨by decide, .none, rfl, Or.inr ⟨?_, rfl⟩⟩
    simp only [List.mem_cons, true_or, or_true]
  | clearActive params =>
    refine Or.inr ⟨by decide, .none, rfl, Or.inr ⟨?_, rfl⟩⟩
    simp only [List.mem_cons, true_or, or_true]
  | present v more set select hset hselect =>
    refine Or.inr ⟨by decide, select, rfl, Or.inl ⟨rfl, v :: more, rfl, ?_⟩⟩
    -- The choice stands behind the set.
    rw [List.getElem?_cons_succ]
    unfold Chooses at hselect
    cases hmore : more[0]? with
    | none =>
      rw [hmore] at hselect
      rw [hselect]
      rfl
    | some w =>
      rw [hmore] at hselect
      exact hselect
  | getView params => exact Or.inl ⟨rfl, rfl⟩

end Command

namespace Session

/-- A line is refused, or it holds a request for a command that is carried
    out. -/
theorem answerOctets_cases (s : Session) (line : List UInt8) :
    (∃ id f, (s.answerOctets line).session = s ∧ (s.answerOctets line).events = [] ∧
      (s.answerOctets line).response = ⟨id, .error f⟩) ∨
    ∃ r c, Request.ofLine? line = some r ∧ Command.Asks s.shorthand r.method r.params c ∧
      (s.answerOctets line).session = s.withCatalog (c.effect s.catalog) ∧
      (s.answerOctets line).events = (s.answerOctets line).session.eventsOf c.announced ∧
      (s.answerOctets line).response =
        ⟨r.id, .ok ((s.answerOctets line).session.resultOf c.announced)⟩ := by
  cases hcommand : (Asked.ofLine s.shorthand line).command with
  | error f =>
    rcases answerOctets_of_error s line f hcommand with ⟨hsession, hevents, hresponse⟩
    exact Or.inl ⟨_, f, hsession, hevents, hresponse⟩
  | ok c =>
    rcases answerOctets_of_ok s line c hcommand with ⟨hsession, hevents, hresponse⟩
    rcases s.request_of_ok line c hcommand with ⟨r, hline, hid, hrequest⟩
    rcases perform_eq s c with ⟨hperform, hresult, hannounce⟩
    refine Or.inr ⟨r, c, hline, (Command.ofRequest_eq_ok_iff _ _ _ c).mp hrequest, ?_, ?_, ?_⟩
    · rw [hsession, hperform]
    · rw [hevents, hannounce, hsession]
    · rw [hresponse, hid, hresult, hsession]

/-- The three things that can come of a line: a refusal, the view, or a change
    that is announced. -/
inductive Comes (s : Session) (line : List UInt8) (reply : Reply) : Prop where
  | refused (id : Value) (f : RequestFault) (hresponse : reply.response = ⟨id, .error f⟩)
    (hsession : reply.session = s) (hevents : reply.events = [])
  | shown (r : Request) (hline : Request.ofLine? line = some r)
    (hmethod : r.method = "get_markers_state") (hresponse : reply.response = ⟨r.id, .ok s.view⟩)
    (hsession : reply.session = s) (hevents : reply.events = [])
  | changed (r : Request) (hline : Request.ofLine? line = some r)
    (hmethod : r.method ≠ "get_markers_state") (select : AutoSelect)
    (hselect : r.Selects select.code)
    (hresponse : reply.response = ⟨r.id, .ok .null⟩)
    (hevents : reply.events = if s.attached then [⟨reply.session.view, select⟩] else [])

theorem answerOctets_comes (s : Session) (line : List UInt8) :
    s.Comes line (s.answerOctets line) := by
  rcases answerOctets_cases s line with ⟨id, f, hsession, hevents, hresponse⟩ |
    ⟨r, c, hline, hasks, hsession, hevents, hresponse⟩
  · exact .refused id f hresponse hsession hevents
  · rcases hasks.announced_cases with ⟨hmethod, rfl⟩ | ⟨hmethod, select, hannounced, hselect⟩
    · -- Asking for the view has no effect on the catalog.
      have hsame : (s.answerOctets line).session = s := hsession
      refine .shown r hline hmethod ?_ hsame hevents
      rw [hresponse, hsame]
      rfl
    · rw [hannounced] at hevents hresponse
      refine .changed r hline hmethod select hselect hresponse ?_
      -- Carrying out a command does not lose the client.
      have hattached : (s.answerOctets line).session.attached = s.attached := by
        rw [hsession]
        rfl
      rw [← hattached]
      exact hevents

/-- The response to a line has an error or a result, and never both. With an error
    nothing was changed and nothing announced. With a result the line held a
    request: for the view, which is the result, and then nothing was changed or
    announced either; or for a change, and then the result is `null`, and the
    client was sent one event, which holds the view after the change and the
    number of the choice that was asked for. -/
theorem answerOctets_atomic (s : Session) (line : List UInt8) :
    let reply := s.answerOctets line
    let response := reply.response.toJson
    (∃ error, response.member? "error" = some error ∧ response.member? "result" = none ∧
      reply.session = s ∧ reply.events = []) ∨
    ∃ r result, Request.ofLine? line = some r ∧ response.member? "error" = none ∧
      response.member? "result" = some result ∧
      ((r.method = "get_markers_state" ∧ result = s.view ∧ reply.session = s ∧
        reply.events = []) ∨
      (r.method ≠ "get_markers_state" ∧ result = .null ∧ ∃ number, r.Selects number ∧
        reply.events.map Event.toJson =
          if s.attached then
            [.object [("event", .string "markers_changed"),
              ("data", .object [("auto_select", .ofInt number),
                ("markers_state", reply.session.view)])]]
          else [])) := by
  intro reply response
  have hcomes : s.Comes line reply := answerOctets_comes s line
  cases hcomes with
  | refused id f hresponse hsession hevents =>
    rcases Response.members_error id f with ⟨⟨error, herror⟩, hresult⟩
    rw [← hresponse] at herror hresult
    exact Or.inl ⟨error, herror, hresult, hsession, hevents⟩
  | shown r hline hmethod hresponse hsession hevents =>
    rcases Response.members_ok r.id s.view with ⟨herror, hresult⟩
    rw [← hresponse] at herror hresult
    exact Or.inr ⟨r, s.view, hline, herror, hresult, Or.inl ⟨hmethod, rfl, hsession, hevents⟩⟩
  | changed r hline hmethod select hselect hresponse hevents =>
    rcases Response.members_ok r.id .null with ⟨herror, hresult⟩
    rw [← hresponse] at herror hresult
    refine Or.inr ⟨r, .null, hline, herror, hresult,
      Or.inr ⟨hmethod, rfl, select.code, hselect, ?_⟩⟩
    rw [hevents]
    by_cases hattached : s.attached = true
    · rw [if_pos hattached, if_pos hattached, List.map_singleton, Event.toJson_eq]
    · rw [if_neg hattached, if_neg hattached, List.map_nil]

end Session

end SourceMarkers
