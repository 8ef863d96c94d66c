import DocLint.Rule.FunctionComment

/-!
# Checks in sequence

A check that follows another adds its events behind and decides the result, unless the first one was
stopped. A check that reports nothing and has a result can be left out.
-/

namespace DocLint.Check

variable {α β : Type}

theorem ext {one other : Check α} (he : one.events = other.events) (hr : one.result = other.result) :
    one = other := by
  cases one
  cases other
  simp_all

@[simp] theorem quiet_ok_bind (value : α) (next : α → Check β) :
    (quiet (.ok value) >>= next) = next value := by
  simp [bind, andThen, quiet]

@[simp] theorem pure_bind (value : α) (next : α → Check β) :
    ((pure value : Check α) >>= next) = next value :=
  quiet_ok_bind value next

variable {check : Check α} {next : α → Check β}

theorem bind_of_ok {value : α} (h : check.result = .ok value) :
    (check >>= next) = ⟨check.events ++ (next value).events, (next value).result⟩ := by
  simp [bind, andThen, h]

theorem bind_of_error {fault : Fault} (h : check.result = .error fault) :
    (check >>= next) = ⟨check.events, .error fault⟩ := by
  simp [bind, andThen, h]

theorem bind_result : (check >>= next).result = check.result >>= fun value => (next value).result := by
  cases h : check.result with
  | error fault => rw [bind_of_error h]; rfl
  | ok value => rw [bind_of_ok h]; rfl

/-- The parts of a check that was not stopped. -/
theorem bind_eq_ok {value : β} (h : (check >>= next).result = .ok value) :
    ∃ first, check.result = .ok first ∧ (next first).result = .ok value ∧
      (check >>= next).events = check.events ++ (next first).events := by
  cases hr : check.result with
  | error fault =>
    rw [bind_of_error hr] at h
    cases h
  | ok first =>
    rw [bind_of_ok hr] at h ⊢
    exact ⟨first, rfl, h, rfl⟩

theorem result_bind_pure {value found : β} (h : (check >>= fun _ => pure value).result = .ok found) :
    found = value := by
  obtain ⟨_, -, hvalue, -⟩ := bind_eq_ok h
  exact (Except.ok.inj hvalue).symm

theorem events_bind_pure (check : Check α) (value : α → β) :
    (check >>= fun found => pure (value found)).events = check.events := by
  cases h : check.result with
  | error fault => rw [bind_of_error h]
  | ok found =>
    rw [bind_of_ok h]
    exact List.append_nil _

theorem events_bind_eq_nil {value : α} (h : check.result = .ok value) :
    (check >>= next).events = [] ↔ check.events = [] ∧ (next value).events = [] := by
  rw [bind_of_ok h]
  exact List.append_eq_nil_iff

theorem bind_assoc {γ : Type} (last : β → Check γ) :
    ((check >>= next) >>= last) = (check >>= fun value => next value >>= last) := by
  cases h : check.result with
  | error fault =>
    have hfirst : (check >>= next).result = .error fault := by rw [bind_of_error h]
    rw [bind_of_error hfirst, bind_of_error h, bind_of_error h]
  | ok value =>
    cases hnext : (next value).result with
    | error fault =>
      have hfirst : (check >>= next).result = .error fault := by rw [bind_of_ok h, hnext]
      rw [bind_of_error hfirst, bind_of_ok h, bind_of_ok h, bind_of_error hnext]
    | ok second =>
      have hfirst : (check >>= next).result = .ok second := by rw [bind_of_ok h, hnext]
      rw [bind_of_ok hfirst, bind_of_ok h, bind_of_ok h, bind_of_ok hnext, List.append_assoc]

end DocLint.Check

namespace DocLint.Stream

variable {stream : Stream} {validator : TagValidator}

theorem mem_functions {i : Nat} :
    i ∈ stream.functions ↔ ∃ token, stream[i]? = some token ∧ token.kind = .function := by
  rw [functions, List.mem_filter, List.mem_range, Option.any_eq_true]
  constructor
  · rintro ⟨-, token, ht, hk⟩
    exact ⟨token, ht, eq_of_beq hk⟩
  · rintro ⟨token, ht, hk⟩
    exact ⟨(Array.getElem?_eq_some_iff.1 ht).1, token, ht, by rw [hk]; rfl⟩

theorem functions_sorted (stream : Stream) : stream.functions.Pairwise (· < ·) :=
  List.pairwise_lt_range.filter _

/-- If all functions were checked, their events follow each other in the order of the functions. -/
theorem checkAll_of_ok {functions : List Nat} (h : (stream.checkAll validator functions).result = .ok ()) :
    (stream.checkAll validator functions).events =
        functions.flatMap (fun i : Nat => (stream.checkFunction validator i).events) ∧
      ∀ i ∈ functions, (stream.checkFunction validator i).result = .ok () := by
  induction functions with
  | nil => exact ⟨rfl, fun i hi => absurd hi List.not_mem_nil⟩
  | cons i rest ih =>
    rw [checkAll] at h ⊢
    cases hfirst : (stream.checkFunction validator i).result with
    | error fault =>
      rw [Check.bind_of_error hfirst] at h
      cases h
    | ok value =>
      rw [Check.bind_of_ok hfirst] at h ⊢
      obtain ⟨hevents, hresults⟩ := ih h
      refine ⟨by rw [hevents, List.flatMap_cons], fun j hj => ?_⟩
      rcases List.mem_cons.1 hj with rfl | hj
      · exact hfirst
      · exact hresults j hj

end DocLint.Stream
