import SourceMarkers.Proofs.Json.Reading
import SourceMarkers.Proofs.Json.RoundTrip
import SourceMarkers.Proofs.Session.Asks
import SourceMarkers.Proofs.Session.Messages

/-!
# The class of a response

Every response is an object with the identifier and one of a result and an
error, and what a client sent tells which of them it gets, and with which
number. The reasons to refuse a request are looked for in a fixed order: the
text, the form of the request, the method, and last the parameters. Each of
them has its number, so the number tells how far a request came.

The identifier comes along two ways. A request brings it as a field, and a value
that is no request may have it as a member. For an object both are the member
`id`, of more of them the last, and `null` without one; so whatever is wrong
with a request that is an object, its response can be told by the identifier.

## Main definitions

* `Value.IsRefusal`, `Value.IsSuccess`: The two forms of a response.
* `Command.methods`, `Command.Takes`: The methods and the parameters that they
  take.
* `Command.NamesSet`, `Command.ShowsSet`: The parameters of the two methods that
  look at them.
* `Request.ClassedBy`: The class of the response to an object.

## Theorems

* `Response.isRefusal_error_iff`, `Response.isSuccess_ok`: The forms of an
  error and of a result.
* `Command.exists_asks_iff`, `Command.code_of_ofRequest`: When there is a
  command, and the number when there is none.
* `Request.ofMembers_of_method`, `Request.ofMembers_of_no_method`: The request
  of an object.
* `Session.classedBy_of_no_method`, `Session.classedBy_of_method`: The class of
  the response to an object.
* `Session.answerOctets_classed`: The class of every response.
-/

namespace SourceMarkers

open Json (Value Mismatch)

/-! ## Responses -/

namespace Json.Value

/-- The response of a refusal: the identifier, and an error with a number and a
    message. -/
def IsRefusal (response id : Value) (code : Int) : Prop :=
  ∃ message, response = .object [
    ("error", .object [("code", .ofInt code), ("message", .string message)]), ("id", id)]

/-- The response of a success: the identifier and a result. -/
def IsSuccess (response id : Value) : Prop :=
  ∃ result, response = .object [("id", id), ("result", result)]

end Json.Value

namespace Response

theorem isRefusal_error_iff (id : Value) (f : RequestFault) (code : Int) :
    (Response.mk id (.error f)).toJson.IsRefusal id code ↔ f.code = code := by
  unfold Value.IsRefusal
  constructor
  · rintro ⟨message, h⟩
    rw [toJson_error] at h
    simp only [Value.ofInt, Value.object.injEq, List.cons.injEq, Prod.mk.injEq, true_and,
      Value.number.injEq, Json.Number.whole.injEq, and_true] at h
    exact h.1
  · rintro rfl
    exact ⟨f.message, toJson_error id f⟩

/-- A result stands under another name than an error. -/
theorem not_isRefusal_ok (id result : Value) (code : Int) :
    ¬ (Response.mk id (.ok result)).toJson.IsRefusal id code := by
  rintro ⟨message, h⟩
  rw [toJson_ok] at h
  simp only [Value.object.injEq, List.cons.injEq, Prod.mk.injEq] at h
  exact absurd h.1.1 (by decide)

theorem not_isSuccess_error (id : Value) (f : RequestFault) :
    ¬ (Response.mk id (.error f)).toJson.IsSuccess id := by
  rintro ⟨result, h⟩
  rw [toJson_error] at h
  simp only [Value.object.injEq, List.cons.injEq, Prod.mk.injEq] at h
  exact absurd h.1.1 (by decide)

theorem isSuccess_ok (id result : Value) :
    (Response.mk id (.ok result)).toJson.IsSuccess id := ⟨result, toJson_ok id result⟩

end Response

/-! ## Methods and parameters -/

namespace Command

/-- The methods that there are. -/
def methods : List String :=
  ["markers_tab_closed", "update_active_marker_set", "clear_active_marker_set", "show_markers",
    "get_markers_state"]

/-- The parameters start with a string. -/
def NamesSet (params : Value) : Prop := ∃ name more, params = .array (.string name :: more)

/-- The parameters start with a marker set that can be read, and what comes
    next, if anything does, is the number of a choice. -/
def ShowsSet (s : Shorthand) (params : Value) : Prop :=
  ∃ v more set, params = .array (v :: more) ∧ (MarkerSet.ofJson s v).value = .ok set ∧
    ∀ w, more[0]? = some w → w = .ofInt 0 ∨ w = .ofInt 1 ∨ w = .ofInt 2

/-- A method takes these parameters. Two of the methods look at them. -/
def Takes (s : Shorthand) (method : String) (params : Value) : Prop :=
  (method = "update_active_marker_set" → NamesSet params) ∧
    (method = "show_markers" → ShowsSet s params)

/-- A parameter is a choice, or there is none. -/
theorem exists_chooses_iff (v? : Option Value) :
    (∃ select, Chooses v? select) ↔
      ∀ v, v? = some v → v = .ofInt 0 ∨ v = .ofInt 1 ∨ v = .ofInt 2 := by
  cases v? with
  | none =>
    have hfirst : Chooses none .first := rfl
    exact ⟨fun _ v h => absurd h.symm (Option.some_ne_none v), fun _ => ⟨.first, hfirst⟩⟩
  | some v =>
    constructor
    · rintro ⟨select, hselect⟩ w hw
      rw [← Option.some.inj hw]
      -- Each choice has its number.
      cases select with
      | none => exact Or.inl hselect
      | first => exact Or.inr (Or.inl hselect)
      | specific => exact Or.inr (Or.inr hselect)
    · intro h
      rcases h v rfl with hv | hv | hv
      · exact ⟨.none, hv⟩
      · exact ⟨.first, hv⟩
      · exact ⟨.specific, hv⟩

/-- A request asks for a command just when there is the method and it takes the
    parameters. -/
theorem exists_asks_iff (s : Shorthand) (method : String) (params : Value) :
    (∃ c, Asks s method params c) ↔ method ∈ methods ∧ Takes s method params := by
  constructor
  · rintro ⟨c, hasks⟩
    cases hasks with
    | closeTab params => exact ⟨by decide, fun h => absurd h (by decide), fun h => absurd h (by decide)⟩
    | activate name more => exact ⟨by decide, fun _ => ⟨name, more, rfl⟩, fun h => absurd h (by decide)⟩
    | clearActive params => exact ⟨by decide, fun h => absurd h (by decide), fun h => absurd h (by decide)⟩
    | present v more set select hset hselect =>
      have hchoice := (exists_chooses_iff more[0]?).mp ⟨select, hselect⟩
      exact ⟨by decide, fun h => absurd h (by decide), fun _ => ⟨v, more, set, rfl, hset, hchoice⟩⟩
    | getView params => exact ⟨by decide, fun h => absurd h (by decide), fun h => absurd h (by decide)⟩
  · rintro ⟨hmethod, hnames, hshows⟩
    simp only [methods, List.mem_cons, List.not_mem_nil, or_false] at hmethod
    rcases hmethod with rfl | rfl | rfl | rfl | rfl
    · exact ⟨.closeTab, .closeTab params⟩
    · rcases hnames rfl with ⟨name, more, rfl⟩
      exact ⟨.activate name, .activate name more⟩
    · exact ⟨.clearActive, .clearActive params⟩
    · rcases hshows rfl with ⟨v, more, set, rfl, hset, hchoice⟩
      rcases (exists_chooses_iff more[0]?).mpr hchoice with ⟨select, hselect⟩
      exact ⟨.present set select, .present v more set select hset hselect⟩
    · exact ⟨.getView, .getView params⟩

/-- Without a command, the number tells whether there is the method. -/
theorem code_of_ofRequest (s : Shorthand) (method : String) (params : Value) (f : RequestFault)
    (h : (ofRequest s method params).value = .error f) :
    (method ∈ methods ∧ f.code = -32602) ∨ (method ∉ methods ∧ f.code = -32601) := by
  unfold ofRequest at h
  split at h
  · exact absurd h (by simp only [Logged.value_pure, reduceCtorEq, not_false_eq_true])
  · refine Or.inl ⟨by decide, ?_⟩
    cases hname : textParam params 0 with
    | error g =>
      rw [hname] at h
      rw [← Except.error.inj h]
      rfl
    | ok name =>
      rw [hname] at h
      exact absurd h (by simp only [Logged.value_pure, Except.map, Except.mapError, reduceCtorEq,
        not_false_eq_true])
  · exact absurd h (by simp only [Logged.value_pure, reduceCtorEq, not_false_eq_true])
  · refine Or.inl ⟨by decide, ?_⟩
    rw [Logged.value_bind] at h
    cases hpresent : (presentOf s params).value with
    | error g =>
      rw [hpresent] at h
      rw [← Except.error.inj h]
      rfl
    | ok c =>
      rw [hpresent] at h
      exact absurd h (by simp only [Logged.value_pure, Except.mapError, reduceCtorEq,
        not_false_eq_true])
  · exact absurd h (by simp only [Logged.value_pure, reduceCtorEq, not_false_eq_true])
  · -- None of the names was met.
    next hclose hactivate hclear hshow hget =>
    refine Or.inr ⟨?_, by rw [← Except.error.inj h]; rfl⟩
    simp only [methods, List.mem_cons, List.not_mem_nil, or_false, not_or]
    exact ⟨hclose, hactivate, hclear, hshow, hget⟩

end Command

/-! ## The request of an object -/

namespace Request

/-- An object whose method is a string is a request. -/
theorem ofMembers_of_method (held : List (String × Value)) (method : String)
    (h : held.lookup "method" = some (.string method)) :
    ofMembers held =
      .ok ⟨(held.lookup "id").getD .null, method, (held.lookup "params").getD .null⟩ := by
  unfold ofMembers
  rw [Json.field?_ok, Json.field?_ok, Json.field?, h]
  rfl

/-- An object without one is none. -/
theorem ofMembers_of_no_method (held : List (String × Value))
    (h : ∀ method, held.lookup "method" ≠ some (.string method)) :
    ∃ m, ofMembers held = .error m := by
  unfold ofMembers
  rw [Json.field?_ok, Json.field?_ok, Json.field?]
  cases hmethod : held.lookup "method" with
  | none => exact ⟨_, rfl⟩
  | some v =>
    cases v with
    | string method => exact absurd hmethod (h method)
    | _ => exact ⟨_, rfl⟩

/-- How an object classes the response to it, its members given by their names.
    The identifier is handed back in each class, and of the other members only
    the method and the parameters count. -/
structure ClassedBy (s : Shorthand) (member? : String → Option Value) (response : Value) :
    Prop where
  /-- There is no string for a method. -/
  noRequest : response.IsRefusal ((member? "id").getD .null) (-32600) ↔
    ∀ method, member? "method" ≠ some (.string method)
  /-- The method is none of those that there are. -/
  noMethod : response.IsRefusal ((member? "id").getD .null) (-32601) ↔
    ∃ method, member? "method" = some (.string method) ∧ method ∉ Command.methods
  /-- The method does not take the parameters. -/
  badParams : response.IsRefusal ((member? "id").getD .null) (-32602) ↔
    ∃ method, member? "method" = some (.string method) ∧ method ∈ Command.methods ∧
      ¬ Command.Takes s method ((member? "params").getD .null)
  /-- The request is carried out. -/
  carriedOut : response.IsSuccess ((member? "id").getD .null) ↔
    ∃ method, member? "method" = some (.string method) ∧ method ∈ Command.methods ∧
      Command.Takes s method ((member? "params").getD .null)

end Request

/-! ## The response to an object -/

namespace Session

/-- The response to a line answers what the line asks for. -/
theorem response_answerOctets (s : Session) (line : List UInt8) :
    ∃ outcome, (s.answerOctets line).response = ⟨(Asked.ofLine s.shorthand line).id, outcome⟩ ∧
      match (Asked.ofLine s.shorthand line).command with
      | .error f => outcome = .error f
      | .ok _ => ∃ result, outcome = .ok result := by
  cases hcommand : (Asked.ofLine s.shorthand line).command with
  | error f => exact ⟨.error f, (answerOctets_of_error s line f hcommand).2.2, rfl⟩
  | ok c =>
    have hresult := (perform_eq s c).2.1
    exact ⟨_, (answerOctets_of_ok s line c hcommand).2.2, _, hresult⟩

/-- What asks for nothing that can be done is refused with its number. -/
theorem isRefusal_of_ofLine (s : Session) (line : List UInt8) (id : Value) (f : RequestFault)
    (h : Asked.ofLine s.shorthand line = ⟨id, .error f⟩) :
    (s.answerOctets line).response.toJson.IsRefusal id f.code := by
  have hcommand : (Asked.ofLine s.shorthand line).command = .error f := by rw [h]
  rw [(answerOctets_of_error s line f hcommand).2.2, h]
  exact (Response.isRefusal_error_iff id f _).mpr rfl

/-- An object without a string for a method is refused as no request. -/
theorem classedBy_of_no_method (s : Shorthand) (member? : String → Option Value)
    (h : ∀ method, member? "method" ≠ some (.string method)) (m : Mismatch) :
    Request.ClassedBy s member?
      (Response.mk ((member? "id").getD .null) (.error (.notARequest m))).toJson := by
  have hnone : ∀ p : String → Prop,
      ¬ ∃ method, member? "method" = some (.string method) ∧ p method := by
    rintro p ⟨method, hmethod, _⟩
    exact h method hmethod
  have hcode : (RequestFault.notARequest m).code = -32600 := rfl
  constructor
  · rw [Response.isRefusal_error_iff]
    exact iff_of_true hcode h
  · rw [Response.isRefusal_error_iff]
    exact iff_of_false (by omega) (hnone _)
  · rw [Response.isRefusal_error_iff]
    exact iff_of_false (by omega) (hnone _)
  · exact iff_of_false (Response.not_isSuccess_error _ _) (hnone _)

/-- With a method, the class is a matter of that method. -/
theorem classedBy_of_conditions (s : Shorthand) (member? : String → Option Value) (method : String)
    (response : Value) (h : member? "method" = some (.string method))
    (hrequest : ¬ response.IsRefusal ((member? "id").getD .null) (-32600))
    (hmethod : response.IsRefusal ((member? "id").getD .null) (-32601) ↔
      method ∉ Command.methods)
    (hparams : response.IsRefusal ((member? "id").getD .null) (-32602) ↔
      method ∈ Command.methods ∧ ¬ Command.Takes s method ((member? "params").getD .null))
    (hdone : response.IsSuccess ((member? "id").getD .null) ↔
      method ∈ Command.methods ∧ Command.Takes s method ((member? "params").getD .null)) :
    Request.ClassedBy s member? response := by
  have honly : ∀ p : String → Prop,
      (∃ name, member? "method" = some (.string name) ∧ p name) ↔ p method := by
    intro p
    rw [h]
    simp only [Option.some.injEq, Value.string.injEq, exists_eq_left']
  have hsome : ¬ ∀ name, member? "method" ≠ some (.string name) := fun hnone => hnone method h
  constructor
  · exact iff_of_false hrequest hsome
  · rw [honly]
    exact hmethod
  · rw [honly]
    exact hparams
  · rw [honly]
    exact hdone

/-- It is the class of what becomes of the command. -/
theorem classedBy_of_method (s : Shorthand) (member? : String → Option Value) (method : String)
    (h : member? "method" = some (.string method)) (outcome : Except RequestFault Value)
    (houtcome :
      match (Command.ofRequest s method ((member? "params").getD .null)).value with
      | .error f => outcome = .error f
      | .ok _ => ∃ result, outcome = .ok result) :
    Request.ClassedBy s member? (Response.mk ((member? "id").getD .null) outcome).toJson := by
  have hasks := Command.exists_asks_iff s method ((member? "params").getD .null)
  cases hcommand : (Command.ofRequest s method ((member? "params").getD .null)).value with
  | ok c =>
    rw [hcommand] at houtcome
    rcases houtcome with ⟨result, rfl⟩
    rcases hasks.mp ⟨c, (Command.ofRequest_eq_ok_iff _ _ _ c).mp hcommand⟩ with ⟨hin, htakes⟩
    have hnone := Response.not_isRefusal_ok ((member? "id").getD .null) result
    have hdone := Response.isSuccess_ok ((member? "id").getD .null) result
    exact classedBy_of_conditions s member? method _ h (hnone _)
      (iff_of_false (hnone _) (not_not_intro hin))
      (iff_of_false (hnone _) fun hbad => hbad.2 htakes) (iff_of_true hdone ⟨hin, htakes⟩)
  | error f =>
    rw [hcommand] at houtcome
    rw [houtcome]
    -- No command was asked for, so one of the two conditions fails.
    have hrefused : ¬ (method ∈ Command.methods ∧
        Command.Takes s method ((member? "params").getD .null)) := by
      rw [← hasks]
      rintro ⟨c, hc⟩
      rw [(Command.ofRequest_eq_ok_iff _ _ _ c).mpr hc] at hcommand
      exact absurd hcommand (by simp only [reduceCtorEq, not_false_eq_true])
    have hcode := Response.isRefusal_error_iff ((member? "id").getD .null) f
    have hdone := iff_of_false (Response.not_isSuccess_error ((member? "id").getD .null) f) hrefused
    refine classedBy_of_conditions s member? method _ h ?_ ?_ ?_ hdone
    all_goals rw [hcode]
    all_goals rcases Command.code_of_ofRequest s method _ f hcommand with ⟨hin, hf⟩ | ⟨hout, hf⟩
    · omega
    · omega
    · exact iff_of_false (by omega) (not_not_intro hin)
    · exact iff_of_true hf hout
    · exact iff_of_true hf ⟨hin, fun htakes => hrefused ⟨hin, htakes⟩⟩
    · exact iff_of_false (by omega) fun hbad => hout hbad.1

/-- The response to a line that is read as an object. -/
theorem classedBy_answerOctets (s : Session) (line : List UInt8) (cs : List Char)
    (held : List (String × Value)) (hdecode : Utf8.decode line = .ok cs)
    (hparse : Json.parseChars cs = .ok (.object held)) :
    Request.ClassedBy s.shorthand (fun name => held.lookup name)
      (s.answerOctets line).response.toJson := by
  rcases response_answerOctets s line with ⟨outcome, hresponse, houtcome⟩
  rw [hresponse]
  unfold Asked.ofLine at houtcome ⊢
  simp only [hdecode, hparse] at houtcome ⊢
  by_cases hmethod : ∃ method, held.lookup "method" = some (.string method)
  · rcases hmethod with ⟨method, hmethod⟩
    have hrequest : Request.ofJson (.object held) = _ := Request.ofMembers_of_method held method hmethod
    simp only [hrequest] at houtcome ⊢
    exact classedBy_of_method s.shorthand _ method hmethod outcome houtcome
  · have hnone := not_exists.mp hmethod
    rcases Request.ofMembers_of_no_method held hnone with ⟨m, hm⟩
    have hrequest : Request.ofJson (.object held) = .error m := hm
    simp only [hrequest] at houtcome ⊢
    rw [houtcome]
    exact classedBy_of_no_method s.shorthand _ hnone m

/-- The response to a line is an object with the identifier and one of a result
    and an error. A line that is no JSON text is refused without an identifier;
    what is a JSON text is for the reader to say, nesting limit included. The texts
    of an object with readable values are among them, in whatever order its members
    come, how often each of them, and wherever blanks stand. The members of an
    object, of more of one name the last, tell the identifier and the class of the
    response. -/
theorem answerOctets_classed (s : Session) (line : List UInt8) :
    let response := (s.answerOctets line).response.toJson
    (∃ id, response.IsSuccess id ∨ ∃ code, response.IsRefusal id code) ∧
      (∀ held cs, (∀ m ∈ held, m.2.Readable (Json.depthLimit - 1)) →
        Json.IsTextOf cs (.object held) → line = Utf8.encode cs →
          Request.ClassedBy s.shorthand (Json.lastMember? held) response) ∧
      match Utf8.decode line with
      | .error _ => response.IsRefusal .null (-32700)
      | .ok cs =>
        match Json.parseChars cs with
        | .error _ => response.IsRefusal .null (-32700)
        | .ok (.object _) => ∃ written, Json.writtenMembers? cs = some written ∧
          Request.ClassedBy s.shorthand (Json.lastMember? written) response
        | .ok _ => True := by
  intro response
  refine ⟨?_, ?_, ?_⟩
  · rcases response_answerOctets s line with ⟨outcome, hresponse, _⟩
    have hform : response = (Response.mk (Asked.ofLine s.shorthand line).id outcome).toJson :=
      congrArg Response.toJson hresponse
    rw [hform]
    refine ⟨(Asked.ofLine s.shorthand line).id, ?_⟩
    cases outcome with
    | ok result => exact Or.inl (Response.isSuccess_ok _ result)
    | error f => exact Or.inr ⟨f.code, (Response.isRefusal_error_iff _ f _).mpr rfl⟩
  · rintro held cs hreadable htext rfl
    have hclassed := classedBy_answerOctets s _ cs _ (Utf8.decode_encode cs)
      (Json.parseChars_of_isTextOf_object cs held htext hreadable)
    rw [Json.lookup_orderMembers_eq] at hclassed
    exact hclassed
  cases hdecode : Utf8.decode line with
  | error f =>
    have hasked : Asked.ofLine s.shorthand line = ⟨.null, .error (.notText f)⟩ := by
      simp only [Asked.ofLine, hdecode]
    exact isRefusal_of_ofLine s line .null _ hasked
  | ok cs =>
    simp only []
    cases hparse : Json.parseChars cs with
    | error f =>
      have hasked : Asked.ofLine s.shorthand line = ⟨.null, .error (.notJson f)⟩ := by
        simp only [Asked.ofLine, hdecode, hparse]
      exact isRefusal_of_ofLine s line .null _ hasked
    | ok v =>
      cases v with
      | object held =>
        rcases Json.writtenMembers?_of_parseChars cs held hparse with ⟨written, hwritten, rfl⟩
        have hclassed := classedBy_answerOctets s line cs _ hdecode hparse
        rw [Json.lookup_orderMembers_eq] at hclassed
        exact ⟨written, hwritten, hclassed⟩
      | _ => exact trivial

end Session

end SourceMarkers
