import SourceMarkers.Proofs.Catalog.Operations
import SourceMarkers.Proofs.Json.RoundTrip
import SourceMarkers.Proofs.Session.Shown

/-!
# Lines that are sent again

A client that cannot tell whether its request came through may send the line once
more. All requests but one say what is to be the case afterwards, a name that is
active or a set that is shown, and not by how much the present is to change. So
the second time there is nothing left to do: a set that was put takes its own
place, a name that was made active is active, and what was forgotten is gone. As
the session is the same after both, so is all that is told of it, the response,
the events and even the log.

The exception is the request to remove the active set, because another set
becomes active then, and would be removed by the next one. That goes wrong as long
as a set is left (`Catalog.clearActive_again_iff`).

A line that is refused leaves the session as it was and is refused again. It does
not matter for what reason, so there is one case for all of them.

## Main definitions

* `Request.AsksToRemove`: The line is a request to remove the active set.

## Theorems

* `Catalog.put_again`, `Catalog.activate_again`: Operations that are done again.
* `Catalog.clearActive_again_iff`: When nothing is lost by a second removal.
* `Session.perform_again`, `Session.call_again`: Commands and calls.
* `Session.answerOctets_again`, `Session.replies_again`: Lines that are sent
  again, once or more often.
* `Session.retry_safe`: Nothing comes of sending a line again.
-/

namespace SourceMarkers

open Json (Value)

/-! ## Operations -/

namespace Catalog

/-- A set that is put again takes its own place. -/
theorem upsert_again (set : MarkerSet) (sets : List MarkerSet) :
    upsert set (upsert set sets) = upsert set sets := by
  induction sets with
  | nil => rw [upsert, upsert, if_pos rfl]
  | cons held rest ih =>
    by_cases h : held.name = set.name
    · have hplace : upsert set (held :: rest) = set :: rest := by rw [upsert, if_pos h]
      rw [hplace, upsert, if_pos rfl]
    · have hplace : upsert set (held :: rest) = held :: upsert set rest := by rw [upsert, if_neg h]
      rw [hplace, upsert, if_neg h, ih]

theorem put_again (c : Catalog) (set : MarkerSet) : (c.put set).put set = c.put set := by
  unfold put
  rw [upsert_again]

/-- A name that is not there is still not there, and is reported once more. -/
theorem activate_again (c : Catalog) (name : String) :
    (c.activate name).value.activate name = c.activate name := by
  by_cases h : name ∈ c.names
  · have hactive : c.activate name = pure { c with active := name } := by rw [activate, if_pos h]
    have hnames : name ∈ ({ c with active := name } : Catalog).names := h
    rw [hactive, Logged.value_pure, activate, if_pos hnames]
  · rw [activate_of_not_mem c name h]

/-- A second removal does nothing only when the first one left no set. -/
theorem clearActive_again_iff (c : Catalog) :
    c.clearActive.clearActive = c.clearActive ↔ c.clearActive.sets = [] := by
  constructor
  · intro hagain
    -- Any set that is left would make the active name one of a set, which the second
    -- removal takes.
    by_contra hleft
    have hactive : c.clearActive.active ∈ c.clearActive.names :=
      (settled_clearActive c).resolve_right fun hnone => hleft hnone.1
    rcases List.mem_map.mp hactive with ⟨set, hset, hname⟩
    have hshorter := List.length_eraseP_of_mem (p := fun set => set.name == c.clearActive.active)
      hset (beq_iff_eq.mpr hname)
    have hsame : c.clearActive.sets.eraseP (fun set => set.name == c.clearActive.active) =
        c.clearActive.sets := congrArg Catalog.sets hagain
    have hpos := List.length_pos_of_mem hset
    rw [hsame] at hshorter
    omega
  · intro hnone
    have hempty : c.clearActive = empty := by
      have hactive : c.clearActive.active = "" := by
        rcases settled_clearActive c with hname | ⟨_, hactive⟩
        · rw [names, hnone] at hname
          exact absurd hname List.not_mem_nil
        · exact hactive
      exact congrArg₂ Catalog.mk hactive hnone
    rw [hempty]
    rfl

end Catalog

/-! ## Requests -/

namespace Request

/-- The line is a request to remove the active set. -/
def AsksToRemove (line : List UInt8) : Prop :=
  ∃ r, ofLine? line = some r ∧ r.method = "clear_active_marker_set"

end Request

namespace Session

variable (s : Session)

/-- A command that was carried out comes to the same when it is carried out again,
    unless it removes a set. -/
theorem perform_again (c : Command) (h : c ≠ .clearActive) :
    (s.perform c).session.perform c = s.perform c := by
  rw [(s.perform_eq c).1]
  cases c with
  | closeTab => rfl
  | activate name =>
    have hagain := s.catalog.activate_again name
    show Outcome.after ((s.withCatalog _).announce .none) _ = _
    simp only [Command.effect, withCatalog, hagain]
    rfl
  | clearActive => exact absurd rfl h
  | present set select =>
    have hagain := s.catalog.put_again set
    show Outcome.after ((s.withCatalog _).announce select) _ = _
    simp only [Command.effect, withCatalog, hagain]
    rfl
  | getView => rfl

/-- A call that was made comes to the same when it is made again, unless it is for
    a removal. A call that was refused is refused by the same session. -/
theorem call_again (method : String) (params : Value) (h : method ≠ "clear_active_marker_set") :
    (s.call method params).session.call method params = s.call method params := by
  cases hcommand : (Command.ofRequest s.shorthand method params).value with
  | error f =>
    have hcall : s.call method params =
        ⟨s, .error f, [], (Command.ofRequest s.shorthand method params).log⟩ := by
      simp only [call, hcommand]
    rw [hcall]
    exact hcall
  | ok c =>
    have hcall : ∀ r : Session, r.shorthand = s.shorthand →
        r.call method params =
          (r.perform c).after (Command.ofRequest s.shorthand method params).log := by
      intro r hr
      simp only [call, hr, hcommand]
    -- Only the method for a removal asks for one.
    have hc : c ≠ .clearActive := by
      rintro rfl
      cases (Command.ofRequest_eq_ok_iff _ _ _ _).mp hcommand with
      | clearActive params => exact h rfl
    rw [hcall s rfl]
    show (s.perform c).session.call method params = _
    rw [hcall _ (s.shorthand_perform c), s.perform_again c hc]

/-- What is answered to a request is put together from what came of the call. -/
theorem serveRequest_again (r : Request) (h : r.method ≠ "clear_active_marker_set") :
    (s.serveRequest r).session.serveRequest r = s.serveRequest r := by
  have hcall := s.call_again r.method r.params h
  show (s.call r.method r.params).session.serveRequest r = s.serveRequest r
  simp only [serveRequest, hcall]

/-- A line gets the same reply when it is sent again. -/
theorem answerOctets_again (line : List UInt8) (h : ¬ Request.AsksToRemove line) :
    (s.answerOctets line).session.answerOctets line = s.answerOctets line := by
  rcases s.answerOctets_by_request line with
    ⟨r, hline, _, hanswer⟩ | ⟨id, f, entry, _, _, hanswer⟩
  · -- The second time the line holds the same request.
    have hmethod : r.method ≠ "clear_active_marker_set" := fun hmethod => h ⟨r, hline, hmethod⟩
    rw [hanswer]
    rcases (s.serveRequest r).session.answerOctets_by_request line with
      ⟨other, hother, _, hagain⟩ | ⟨_, _, _, hnone, _, _⟩
    · rw [hagain, Option.some.inj (hother.symm.trans hline), s.serveRequest_again r hmethod]
    · exact absurd (hnone.symm.trans hline) (by simp only [reduceCtorEq, not_false_eq_true])
  · -- A line that is no request is refused by a session that stays as it was.
    have hsame : (s.answerOctets line).session = s := by rw [hanswer]; rfl
    rw [hsame]

/-- So it does however often it is sent. -/
theorem replies_again (line : List UInt8) (h : ¬ Request.AsksToRemove line) (n : Nat) :
    (s.answerOctets line).session.replies (List.replicate n line) =
      List.replicate n (s.answerOctets line) := by
  induction n with
  | zero => rfl
  | succ n ih => rw [List.replicate_succ, List.replicate_succ, replies, s.answerOctets_again line h, ih]

/-- A line that is sent again, and that is no request to remove the active set, is
    answered as before, announces the same, and leaves the session as it was after
    the first time, with the same catalog to the letter. It may be a good request, a
    bad one, or no request at all, and it may be sent any number of times. -/
theorem retry_safe (line : List UInt8) (h : ¬ Request.AsksToRemove line) :
    let first := s.answerOctets line
    let second := first.session.answerOctets line
    second.response = first.response ∧ second.events = first.events ∧
      second.session = first.session ∧
      ∀ n, first.session.replies (List.replicate n line) = List.replicate n first := by
  intro first second
  have hsame : second = first := s.answerOctets_again line h
  rw [hsame]
  exact ⟨rfl, rfl, rfl, s.replies_again line h⟩

/-- A set that is new is shown twice: the first time it is put behind the other one,
    the second time it is already there. -/
theorem retry_safe_lint :
    let s : Session := ⟨.verbatim, ⟨"build", [⟨"build", none, []⟩]⟩, true⟩
    let lint : MarkerSet := ⟨"lint", none, []⟩
    let request : Value := .object [("id", .ofInt 1), ("method", .string "show_markers"),
      ("params", .array [lint.toJson .verbatim, .ofInt 2])]
    let line := Utf8.encode request.chars
    let first := s.answerOctets line
    let second := first.session.answerOctets line
    ¬ Request.AsksToRemove line ∧ first.session.catalog.names = ["build", "lint"] ∧
      second.session = first.session ∧ second.response = ⟨.ofInt 1, .ok .null⟩ ∧
      second.events = [⟨first.session.view, .specific⟩] := by
  intro s lint request line first second
  have hparams : ∀ v ∈ [lint.toJson .verbatim, .ofInt 2], v.Readable 3 := by
    simp only [List.forall_mem_cons]
    exact ⟨lint.readable_toJson .verbatim, Value.readable_ofInt 3 2 ⟨by decide, by decide⟩,
      List.forall_mem_nil _⟩
  have hreadable : request.Readable 5 := by
    refine (Value.readable_object_iff 4 _).mpr ⟨by decide, ?_⟩
    simp only [List.forall_mem_cons]
    exact ⟨Value.readable_ofInt 4 1 ⟨by decide, by decide⟩, Value.readable_string 4 _,
      (Value.readable_array_iff 3 _).mpr hparams, List.forall_mem_nil _⟩
  -- The line is read as the request, and the request is to show the set.
  let r : Request := ⟨.ofInt 1, "show_markers", .array [lint.toJson .verbatim, .ofInt 2]⟩
  have hdecode : Utf8.decode line = .ok request.chars := Utf8.decode_encode _
  have hparse := Json.parseChars_chars request (hreadable.mono (by decide))
  have hrequest : Request.ofJson request = .ok r := rfl
  have hline : Request.ofLine? line = some r := by
    simp only [Request.ofLine?, hdecode, hparse, hrequest, Except.toOption]
  have hasks : ¬ Request.AsksToRemove line := by
    rintro ⟨r', hr', hmethod⟩
    rw [← Option.some.inj (hline.symm.trans hr')] at hmethod
    exact absurd hmethod (by decide)
  have hcall : s.call r.method r.params = s.present lint .specific := s.call_written lint .specific
  have hfirst : first = s.serveRequest r := by
    show s.answerOctets line = _
    simp only [answerOctets, answer, hdecode, hparse, hrequest]
  simp only [serveRequest, hcall] at hfirst
  rcases s.retry_safe line hasks with ⟨hresponse, hevents, hsession, _⟩
  have hresponse' : second.response = first.response := hresponse
  have hevents' : second.events = first.events := hevents
  refine ⟨hasks, ?_, hsession, ?_, ?_⟩
  · rw [hfirst]
    decide
  · rw [hresponse', hfirst]
    rfl
  · rw [hevents', hfirst]
    rfl

end Session

end SourceMarkers
