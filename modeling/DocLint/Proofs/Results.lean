import Mathlib.Data.List.Forall2

/-!
# Results of many steps

Steps that follow each other give a result exactly if each one does, and so do steps for each of some things.
-/

namespace DocLint

variable {α β ε : Type}

/-- A result that is known to be one can be named. -/
theorem exists_eq_ok {result : Except ε α} (h : result.isOk = true) :
    ∃ value, result = .ok value := by
  cases result with
  | error error => cases h
  | ok value => exact ⟨value, rfl⟩

theorem exists_eq_ok_of_any {result : Except ε α} {p : α → Bool}
    (h : result.toOption.any p = true) : ∃ value, result = .ok value ∧ p value = true := by
  cases result with
  | error error => cases h
  | ok value => exact ⟨value, rfl, h⟩

theorem eq_ok_of_toOption {result : Except ε α} {value : α}
    (h : result.toOption = some value) : result = .ok value := by
  cases result with
  | error error => cases h
  | ok found =>
    obtain rfl : found = value := Option.some.inj h
    rfl

theorem bind_eq_ok {first : Except ε α} {next : α → Except ε β} {result : β} :
    (first >>= next) = .ok result ↔ ∃ value, first = .ok value ∧ next value = .ok result := by
  cases first with
  | error fault =>
    constructor
    · intro h
      cases h
    · rintro ⟨value, h, -⟩
      cases h
  | ok value =>
    constructor
    · intro h
      exact ⟨value, rfl, h⟩
    · rintro ⟨other, hother, h⟩
      obtain rfl := Except.ok.inj hother
      exact h

theorem mapError_eq_ok {δ : Type} {result : Except ε α} {change : ε → δ} {value : α} :
    result.mapError change = .ok value ↔ result = .ok value := by
  cases result with
  | error fault =>
    constructor
    · intro h
      cases h
    · intro h
      cases h
  | ok found => exact ⟨fun h => congrArg _ (Except.ok.inj h), fun h => congrArg _ (Except.ok.inj h)⟩

theorem map_eq_ok {result : Except ε α} {change : α → β} {value : β} :
    result.map change = .ok value ↔ ∃ found, result = .ok found ∧ change found = value := by
  cases result with
  | error fault =>
    constructor
    · intro h
      cases h
    · rintro ⟨found, h, -⟩
      cases h
  | ok found =>
    constructor
    · intro h
      exact ⟨found, rfl, Except.ok.inj h⟩
    · rintro ⟨other, hother, rfl⟩
      obtain rfl := Except.ok.inj hother
      rfl

theorem map_eq_error {result : Except ε α} {change : α → β} {fault : ε} :
    result.map change = .error fault ↔ result = .error fault := by
  cases result with
  | error other => exact ⟨fun h => congrArg _ (Except.error.inj h), fun h => congrArg _ (Except.error.inj h)⟩
  | ok found =>
    constructor
    · intro h
      cases h
    · intro h
      cases h

variable {f : α → Except ε β} {items : List α} {made : List β}

theorem mapM_eq_ok : items.mapM f = .ok made ↔ List.Forall₂ (fun item result => f item = .ok result) items made := by
  induction items generalizing made with
  | nil =>
    rw [List.forall₂_nil_left_iff]
    exact ⟨fun h => (Except.ok.inj h).symm, fun h => h ▸ rfl⟩
  | cons item rest ih =>
    rw [List.mapM_cons, List.forall₂_cons_left_iff]
    constructor
    · intro h
      obtain ⟨first, hfirst, h⟩ := bind_eq_ok.1 h
      obtain ⟨more, hmore, h⟩ := bind_eq_ok.1 h
      exact ⟨first, more, hfirst, ih.1 hmore, (Except.ok.inj h).symm⟩
    · rintro ⟨first, more, hfirst, hmore, rfl⟩
      rw [hfirst, ih.2 hmore]
      rfl

theorem exists_mapM {r : α → β → Prop} (h : ∀ item ∈ items, ∃ result, f item = .ok result ∧ r item result) :
    ∃ made, items.mapM f = .ok made ∧ List.Forall₂ r items made := by
  induction items with
  | nil => exact ⟨[], rfl, .nil⟩
  | cons item rest ih =>
    obtain ⟨first, hfirst, hr⟩ := h item List.mem_cons_self
    obtain ⟨more, hmore, hall⟩ := ih fun other hm => h other (List.mem_cons_of_mem _ hm)
    exact ⟨first :: more, mapM_eq_ok.2 (.cons hfirst (mapM_eq_ok.1 hmore)), .cons hr hall⟩

theorem exists_of_mem_right {r : α → β → Prop} (h : List.Forall₂ r items made) {result : β} (hm : result ∈ made) :
    ∃ item ∈ items, r item result := by
  induction h with
  | nil => cases hm
  | @cons item first rest more hfirst _ ih =>
    rcases List.mem_cons.1 hm with rfl | hm
    · exact ⟨item, List.mem_cons_self, hfirst⟩
    · obtain ⟨other, hother, hresult⟩ := ih hm
      exact ⟨other, List.mem_cons_of_mem _ hother, hresult⟩

theorem map_eq_map_of_forall₂ {γ : Type} {r : α → β → Prop} {left : α → γ} {right : β → γ}
    (h : List.Forall₂ r items made) (hr : ∀ item result, r item result → left item = right result) :
    items.map left = made.map right := by
  have hall := h.imp hr
  rw [← List.forall₂_map_right_iff, ← List.forall₂_map_left_iff, List.forall₂_eq_eq_eq] at hall
  exact hall

/-- Steps for each of some things give a result exactly if each one does. -/
theorem exists_mapM_iff : (∃ made, items.mapM f = .ok made) ↔ ∀ item ∈ items, ∃ result, f item = .ok result := by
  constructor
  · rintro ⟨made, h⟩ item hitem
    obtain ⟨result, -, hresult⟩ := exists_of_mem_right (mapM_eq_ok.1 h).flip hitem
    exact ⟨result, hresult⟩
  · intro h
    have hall : ∀ item ∈ items, ∃ result, f item = .ok result ∧ f item = .ok result := by
      intro item hitem
      obtain ⟨result, hresult⟩ := h item hitem
      exact ⟨result, hresult, hresult⟩
    obtain ⟨made, hmade, -⟩ := exists_mapM hall
    exact ⟨made, hmade⟩

theorem exists_flatten_iff {f : α → Except ε (List β)} :
    (∃ found, (items.mapM f >>= fun parts => pure parts.flatten) = .ok found) ↔
      ∀ item ∈ items, ∃ part, f item = .ok part := by
  rw [← exists_mapM_iff]
  constructor
  · rintro ⟨found, h⟩
    obtain ⟨parts, hparts, -⟩ := bind_eq_ok.1 h
    exact ⟨parts, hparts⟩
  · rintro ⟨parts, hparts⟩
    exact ⟨parts.flatten, by rw [hparts]; rfl⟩

/-- If each of some things gives what is related to it, all of them give what is related to one of them. -/
theorem mem_flatten_iff {f : α → Except ε (List β)} {r : α → β → Prop} {found : List β}
    (h : (items.mapM f >>= fun parts => pure parts.flatten) = .ok found)
    (hr : ∀ item part, f item = .ok part → ∀ x, x ∈ part ↔ r item x) {x : β} :
    x ∈ found ↔ ∃ item ∈ items, r item x := by
  obtain ⟨parts, hparts, h⟩ := bind_eq_ok.1 h
  obtain rfl := Except.ok.inj h
  have hall := mapM_eq_ok.1 hparts
  rw [List.mem_flatten]
  constructor
  · rintro ⟨part, hpart, hx⟩
    obtain ⟨item, hitem, hmade⟩ := exists_of_mem_right hall hpart
    exact ⟨item, hitem, (hr item part hmade x).1 hx⟩
  · rintro ⟨item, hitem, hx⟩
    obtain ⟨part, hpart, hmade⟩ := exists_of_mem_right hall.flip hitem
    exact ⟨part, hpart, (hr item part hmade x).2 hx⟩

end DocLint
