import DocLint.Proofs.Attribution
import DocLint.Proofs.ReturnedValues

/-!
# Where the scan for a returned value starts

The opening brace of a body is looked for in two ways. Pairing passes over parentheses as a whole. The scan for a
returned value takes the first opening brace behind the function, wherever that stands. So the scan starts at the
body if and only if no brace opens before the body, and only then are the values it finds sure to be returned in
the body (`Stream.scan_starts_at_body_iff`). The closure that a parameter has for its default is enough to make the
two differ (`Stream.scan_starts_in_parameters`).
-/

namespace DocLint.Stream

variable {source : Text} {stream : Stream} {i o c : Nat} {function : Token}

/-- No brace opens behind the index `i` and before the index `o`. -/
def NoBraceBetween (stream : Stream) (i o : Nat) : Prop :=
  ∀ (k : Nat) (token : Token), i < k → k < o → stream[k]? = some token → token.kind ≠ .openBrace

instance (stream : Stream) (i o : Nat) : Decidable (NoBraceBetween stream i o) :=
  decidable_of_iff (∀ k < o, i < k → (stream[k]?.all fun token => decide (token.kind ≠ .openBrace)) = true) <| by
    constructor
    · intro h k token hik hko ht
      have hall := h k hko hik
      rw [ht] at hall
      exact of_decide_eq_true hall
    · intro h k hko hik
      rw [Option.all_eq_true]
      intro token ht
      exact decide_eq_true (h k token hik hko ht)

theorem findNext_eq_opener_iff (hs : stream.Sound) (hi : stream[i]? = some function)
    (hk : function.kind = .function) (hscope : function.scope = .between o c) :
    stream.findNext { kinds := [.openBrace] } i (some (c : Int)) = some o ↔ NoBraceBetween stream i o := by
  constructor
  · intro hfind
    exact (firstBrace_of_findNext hi hk hfind).first
  · intro hnone
    obtain ⟨b, hb, -⟩ := hs.returnsValue_eq hi hk hscope
    have hfirst := firstBrace_of_findNext hi hk hb
    obtain ⟨o', c', hscope', hio, -, -, hbrace⟩ := hs.body hi (Or.inl hk) (link_between_ne hscope)
    obtain ⟨rfl, rfl⟩ := link_between_inj (hscope.symm.trans hscope')
    -- neither of the two braces is before the other
    have hle : b ≤ o := by
      by_contra hlt
      obtain ⟨brace, ho, hkind⟩ := accepts_kinds.1 hbrace
      exact hfirst.first o brace hio (by omega) ho (by simpa using hkind)
    have hge : o ≤ b := by
      by_contra hlt
      obtain ⟨brace, hat, hkind⟩ := hfirst.brace
      exact hnone b brace hfirst.behind (by omega) hat hkind
    rw [hb, Nat.le_antisymm hle hge]

/-- A function that is taken to return a value has a `return` of its own where the scan goes. -/
theorem exists_ownReturn (h : ofSource source = .ok stream) (hi : stream[i]? = some function)
    (hk : function.kind = .function) (hscope : function.scope = .between o c) {b : Nat}
    (hb : stream.findNext { kinds := [.openBrace] } i (some (c : Int)) = some b)
    (hreturns : stream.returnsValue i = .ok true) : ∃ r, b < r ∧ r < c ∧ OwnReturn stream b r := by
  have hs := sound h
  obtain ⟨o', c', hscope', -, -, hsize, -⟩ := hs.body hi (Or.inl hk) (link_between_ne hscope)
  obtain ⟨-, rfl⟩ := link_between_inj (hscope.symm.trans hscope')
  obtain ⟨start, hstart, hscan⟩ := hs.returnsValue_eq hi hk hscope
  obtain rfl := Option.some.inj (hb.symm.trans hstart)
  obtain ⟨last, answer, hv, hh⟩ := hs.exists_halts (Nat.le_of_lt hsize) b
  have hanswer : answer = .ok true := by
    rw [← hs.scanReturns_eq hv hh (show c - b ≤ 2 * stream.size + 1 by omega), ← hscan, hreturns]
  subst hanswer
  obtain ⟨cursors, hchain, hlast, hmem⟩ := hv.exists_cursors h
  obtain ⟨r, hbr, hrc, hown⟩ := (answer_iff h hchain hlast hmem hh).1 rfl
  have hne : b ≠ r := by
    rintro rfl
    obtain ⟨brace, hat, hbrace⟩ := (firstBrace_of_findNext hi hk hb).brace
    obtain ⟨word, hw, hword⟩ := hown.word
    obtain rfl := Option.some.inj (hat.symm.trans hw)
    rw [hword] at hbrace
    cases hbrace
  exact ⟨r, by omega, hrc, hown⟩

/-- The check of `@return` is not asked for if no value is returned. -/
theorem checkFunction_of_not_returns (hno : stream.returnsValue i ≠ .ok true) (validator : TagValidator)
    (checkReturn : Stream → (function comment : Int) → Check Unit) :
    stream.checkFunction { validator with checkReturn } i = stream.checkFunction validator i := by
  have hask : ∀ comment, stream.askReturn { validator with checkReturn } i comment =
      stream.askReturn validator i comment := by
    intro comment
    unfold askReturn
    cases hvalue : stream.returnsValue i with
    | error fault => rfl
    | ok value =>
      cases value with
      | true => exact absurd hvalue hno
      | false => rfl
  unfold checkFunction
  split
  · rfl
  · simp only [checkComment, hask]
    rfl

/-- Where the scan for a returned value starts.

* It starts at the opening brace of the body if and only if no brace opens between the function and its body.
* Then a function is taken to return a value only if it has a `return` of its own in its body.
* If it has none there, its check does not depend on the check of `@return`, whatever that does. -/
theorem scan_starts_at_body_iff (h : ofSource source = .ok stream) (hi : stream[i]? = some function)
    (hk : function.kind = .function) (hscope : function.scope = .between o c) :
    (stream.findNext { kinds := [.openBrace] } i (some (c : Int)) = some o ↔ NoBraceBetween stream i o) ∧
    (NoBraceBetween stream i o →
      (stream.returnsValue i = .ok true → ∃ r, o < r ∧ r < c ∧ OwnReturn stream o r) ∧
      ((∀ r, o < r → r < c → ¬ OwnReturn stream o r) → ∀ (validator : TagValidator) checkReturn,
        stream.checkFunction { validator with checkReturn } i = stream.checkFunction validator i)) := by
  have hstart := findNext_eq_opener_iff (sound h) hi hk hscope
  refine ⟨hstart, fun hnone => ?_⟩
  have hvalue : stream.returnsValue i = .ok true → ∃ r, o < r ∧ r < c ∧ OwnReturn stream o r := by
    intro hreturns
    exact exists_ownReturn h hi hk hscope (hstart.2 hnone) hreturns
  refine ⟨hvalue, fun hbody validator checkReturn => checkFunction_of_not_returns ?_ validator checkReturn⟩
  intro hreturns
  obtain ⟨r, hor, hrc, hown⟩ := hvalue hreturns
  exact hbody r hor hrc hown

/-- A function whose parameter has brackets in its default: the scan starts at its body, and finds a `return` there. -/
theorem scan_starts_at_body_iff_default :
    ∃ stream, ofSource "<?php function f($x = [g(1)]) \x7b return $x; \x7d".toList = .ok stream ∧
      ∃ function : Token, stream[2]? = some function ∧ function.kind = .function ∧
        function.scope = .between 18 25 ∧ NoBraceBetween stream 2 18 ∧
        stream.findNext { kinds := [.openBrace] } (2 : Nat) (some (25 : Nat)) = some 18 ∧
        stream.returnsValue (2 : Nat) = .ok true ∧ ∃ r, 18 < r ∧ r < 25 ∧ OwnReturn stream 18 r := by
  have hrun : (ofSource "<?php function f($x = [g(1)]) \x7b return $x; \x7d".toList).toOption.any (fun stream =>
      stream[2]?.any (fun function => function.kind = .function ∧ function.scope = .between 18 25) &&
        decide (NoBraceBetween stream 2 18) && stream.returnsValue (2 : Nat) == .ok true) = true := by
    decide +kernel
  obtain ⟨stream, h, hat⟩ := exists_eq_ok_of_any hrun
  simp only [Bool.and_eq_true, Option.any_eq_true, decide_eq_true_eq, beq_iff_eq] at hat
  obtain ⟨⟨⟨function, hi, hk, hscope⟩, hnone⟩, hreturns⟩ := hat
  obtain ⟨hstart, hbody⟩ := scan_starts_at_body_iff h hi hk hscope
  exact ⟨stream, h, function, hi, hk, hscope, hnone, hstart.2 hnone, hreturns, (hbody hnone).1 hreturns⟩

/-- A parameter with a closure for its default, and an empty body. -/
def closureDefault : Text :=
  "<?php\n/** @param callable $a Text. */\nfunction f($a = function () \x7b return 1; \x7d) \x7b\x7d".toList

/-- The scan starts in the parameters, and takes what the closure returns for a value of the function. So the comment
is said to miss a `@return`, though the body is empty. -/
theorem scan_starts_in_parameters :
    ∃ stream, ofSource closureDefault = .ok stream ∧
      ∃ function : Token, stream[10]? = some function ∧ function.kind = .function ∧
        function.scope = .between 33 34 ∧
        stream.findNext { kinds := [.openBrace] } (10 : Nat) (some (34 : Nat)) = some 23 ∧
        stream.returnsValue (10 : Nat) = .ok true ∧ (∀ r, 33 < r → r < 34 → ¬ OwnReturn stream 33 r) ∧
        (stream.findingsAbout 10).map (·.code) = ["MissingReturn"] := by
  have hrun : (ofSource closureDefault).toOption.any (fun stream =>
      stream[10]?.any (fun function => function.kind = .function ∧ function.scope = .between 33 34) &&
        stream.findNext { kinds := [.openBrace] } (10 : Nat) (some (34 : Nat)) == some 23 &&
        stream.returnsValue (10 : Nat) == .ok true &&
        (stream.findingsAbout 10).map (·.code) == ["MissingReturn"]) = true := by
    decide +kernel
  obtain ⟨stream, h, hat⟩ := exists_eq_ok_of_any hrun
  simp only [Bool.and_eq_true, Option.any_eq_true, decide_eq_true_eq, beq_iff_eq] at hat
  obtain ⟨⟨⟨⟨function, hi, hk, hscope⟩, hstart⟩, hreturns⟩, hcodes⟩ := hat
  refine ⟨stream, h, function, hi, hk, hscope, hstart, hreturns, fun r hlt hgt => ?_, hcodes⟩
  omega

end DocLint.Stream
