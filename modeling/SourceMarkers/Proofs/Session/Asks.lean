import SourceMarkers.Proofs.Session.Step

/-!
# Requests that are carried out

Which command a request asks for, as a relation with one case for each method.
The parameters of two of the methods are never looked at; one takes a string,
and one takes a marker set and may take a choice. More parameters than a
method takes do no harm.

The relation says what a client has to send. It holds just when reading the
request gives the command, so nothing else is carried out, and nothing of this
is refused.

## Main definitions

* `Command.Chooses`: The choice that goes with an optional parameter.
* `Command.Asks`: The command of a method and its parameters.

## Theorems

* `Command.ofRequest_eq_ok_iff`: Reading a request gives that command.
* `Command.Asks.clean`: A set that is to be shown is clean.
-/

namespace SourceMarkers

open Json (Value)

namespace AutoSelect

theorem ofCode?_eq_some_iff (n : Int) (select : AutoSelect) :
    ofCode? n = some select ↔ n = select.code := by
  constructor
  · intro h
    unfold ofCode? at h
    -- The three numbers are tried one after the other.
    split at h
    · next hn => rw [← Option.some.inj h, hn]; rfl
    split at h
    · next hn => rw [← Option.some.inj h, hn]; rfl
    split at h
    · next hn => rw [← Option.some.inj h, hn]; rfl
    · exact absurd h (by simp only [reduceCtorEq, not_false_eq_true])
  · rintro rfl
    cases select <;> rfl

end AutoSelect

namespace Command

/-- The choice of an optional parameter: its number, or the first marker. -/
def Chooses (v? : Option Value) (select : AutoSelect) : Prop :=
  match v? with
  | none => select = .first
  | some v => v = .ofInt select.code

/-- A method with its parameters asks for a command. -/
inductive Asks (s : Shorthand) : String → Value → Command → Prop where
  | closeTab (params : Value) : Asks s "markers_tab_closed" params .closeTab
  | activate (name : String) (more : List Value) :
    Asks s "update_active_marker_set" (.array (.string name :: more)) (.activate name)
  | clearActive (params : Value) : Asks s "clear_active_marker_set" params .clearActive
  | present (v : Value) (more : List Value) (set : MarkerSet) (select : AutoSelect)
    (hset : (MarkerSet.ofJson s v).value = .ok set) (hselect : Chooses more[0]? select) :
    Asks s "show_markers" (.array (v :: more)) (.present set select)
  | getView (params : Value) : Asks s "get_markers_state" params .getView

/-! ## Parameters -/

theorem param_eq_ok_iff (params : Value) (v : Value) :
    param params 0 = .ok v ↔ ∃ more, params = .array (v :: more) := by
  constructor
  · intro h
    unfold param param? at h
    cases params with
    | array items =>
      cases items with
      | nil => exact absurd h (by simp only [List.getElem?_nil, bind, Except.bind, reduceCtorEq,
          not_false_eq_true])
      | cons first more =>
        simp only [List.getElem?_cons_zero, bind, Except.bind, Except.ok.injEq] at h
        exact ⟨more, by rw [h]⟩
    | _ => exact absurd h (by simp only [bind, Except.bind, reduceCtorEq, not_false_eq_true])
  · rintro ⟨more, rfl⟩
    rfl

theorem textParam_eq_ok_iff (params : Value) (name : String) :
    textParam params 0 = .ok name ↔ ∃ more, params = .array (.string name :: more) := by
  unfold textParam
  constructor
  · intro h
    cases hparam : param params 0 with
    | error f =>
      rw [hparam] at h
      exact absurd h (by simp only [bind, Except.bind, reduceCtorEq, not_false_eq_true])
    | ok v =>
      rcases (param_eq_ok_iff params v).mp hparam with ⟨more, rfl⟩
      rw [hparam] at h
      cases v with
      | string text => exact ⟨more, by rw [Except.ok.inj h]⟩
      | _ => exact absurd h (by simp only [bind, Except.bind, reduceCtorEq, not_false_eq_true])
  · rintro ⟨more, rfl⟩
    rw [(param_eq_ok_iff _ (.string name)).mpr ⟨more, rfl⟩]
    rfl

theorem selectOf?_eq_some_iff (v : Value) (select : AutoSelect) :
    selectOf? v = some select ↔ v = .ofInt select.code := by
  unfold selectOf? Value.ofInt
  split
  · rw [AutoSelect.ofCode?_eq_some_iff, Value.number.injEq, Json.Number.whole.injEq]
  · next hother =>
    constructor
    · intro h
      exact absurd h (by simp only [reduceCtorEq, not_false_eq_true])
    · intro h
      exact absurd h (hother select.code)

theorem selectParam_eq_ok_iff (v : Value) (more : List Value) (select : AutoSelect) :
    selectParam (.array (v :: more)) 1 = .ok select ↔ Chooses more[0]? select := by
  unfold selectParam param? Chooses
  simp only [List.getElem?_cons_succ, bind, Except.bind]
  -- A parameter that is absent stands for the first marker.
  cases more[0]? with
  | none =>
    simp only [Except.ok.injEq]
    exact eq_comm
  | some w =>
    simp only []
    rw [← selectOf?_eq_some_iff]
    cases selectOf? w with
    | none => simp only [reduceCtorEq]
    | some found => simp only [Except.ok.injEq, Option.some.injEq]

/-- The parameters of a set to be shown. -/
theorem presentOf_eq_ok_iff (s : Shorthand) (params : Value) (c : Command) :
    (presentOf s params).value = .ok c ↔
      ∃ v more set select, params = .array (v :: more) ∧
        (MarkerSet.ofJson s v).value = .ok set ∧ Chooses more[0]? select ∧
        c = .present set select := by
  unfold presentOf
  constructor
  · -- The set is read before the choice, and both before the command is made.
    intro h
    cases hparam : param params 0 with
    | error f =>
      rw [hparam] at h
      exact absurd h (by simp only [Logged.value_pure, reduceCtorEq, not_false_eq_true])
    | ok v =>
      rcases (param_eq_ok_iff params v).mp hparam with ⟨more, rfl⟩
      rw [hparam] at h
      simp only [Logged.value_bind] at h
      cases hset : (MarkerSet.ofJson s v).value with
      | error f =>
        rw [hset] at h
        exact absurd h (by simp only [Logged.value_pure, reduceCtorEq, not_false_eq_true])
      | ok set =>
        rw [hset] at h
        cases hselect : selectParam (.array (v :: more)) 1 with
        | error f =>
          rw [hselect] at h
          exact absurd h (by simp only [Logged.value_pure, Except.map, reduceCtorEq,
            not_false_eq_true])
        | ok select =>
          rw [hselect] at h
          simp only [Logged.value_pure, Except.map, Except.ok.injEq] at h
          exact ⟨v, more, set, select, rfl, hset, (selectParam_eq_ok_iff v more select).mp hselect,
            h.symm⟩
  · rintro ⟨v, more, set, select, rfl, hset, hselect, rfl⟩
    rw [(param_eq_ok_iff _ v).mpr ⟨more, rfl⟩]
    simp only [Logged.value_bind, hset, (selectParam_eq_ok_iff v more select).mpr hselect]
    rfl

/-- A command is read off a request just when the request asks for it. -/
theorem ofRequest_eq_ok_iff (s : Shorthand) (method : String) (params : Value) (c : Command) :
    (ofRequest s method params).value = .ok c ↔ Asks s method params c := by
  constructor
  · -- One case for each method, and one for those that are not known.
    intro h
    unfold ofRequest at h
    split at h
    · rw [← Except.ok.inj h]
      exact .closeTab params
    · -- Only a string in the first place is a name.
      cases hname : textParam params 0 with
      | error f =>
        rw [hname] at h
        exact absurd h (by simp only [Logged.value_pure, Except.map, Except.mapError, reduceCtorEq,
          not_false_eq_true])
      | ok name =>
        rw [hname] at h
        rcases (textParam_eq_ok_iff params name).mp hname with ⟨more, rfl⟩
        rw [← Except.ok.inj h]
        exact .activate name more
    · rw [← Except.ok.inj h]
      exact .clearActive params
    · cases hpresent : (presentOf s params).value with
      | error f =>
        rw [Logged.value_bind, hpresent] at h
        exact absurd h (by simp only [Logged.value_pure, Except.mapError, reduceCtorEq,
          not_false_eq_true])
      | ok found =>
        rw [Logged.value_bind, hpresent] at h
        rcases (presentOf_eq_ok_iff s params found).mp hpresent with
          ⟨v, more, set, select, rfl, hset, hselect, rfl⟩
        rw [← Except.ok.inj h]
        exact .present v more set select hset hselect
    · rw [← Except.ok.inj h]
      exact .getView params
    · exact absurd h (by simp only [Logged.value_pure, reduceCtorEq, not_false_eq_true])
  · intro h
    cases h with
    | closeTab params => rfl
    | activate name more =>
      simp only [ofRequest, (textParam_eq_ok_iff _ name).mpr ⟨more, rfl⟩]
      rfl
    | clearActive params => rfl
    | present v more set select hset hselect =>
      simp only [ofRequest, Logged.value_bind,
        (presentOf_eq_ok_iff s _ _).mpr ⟨v, more, set, select, rfl, hset, hselect, rfl⟩]
      rfl
    | getView params => rfl

/-- A set that is asked to be shown has paths that come back. -/
theorem Asks.clean {s : Shorthand} {method : String} {params : Value} {c : Command}
    (h : Asks s method params c) : c.Clean s := by
  cases h with
  | present v more set select hset hselect => exact MarkerSet.clean_of_ofJson s v set hset
  | _ => exact trivial

end Command

end SourceMarkers
