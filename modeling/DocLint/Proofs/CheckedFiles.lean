import DocLint.Proofs.Events
import DocLint.Proofs.FileRecords
import DocLint.Proofs.Stopping
import Mathlib.Data.List.Basic
import Mathlib.Data.List.Count

/-!
# What a check of a file records

A check of a file decides for each function, by its comment alone, what is recorded: a missing comment, with the
metric and nothing else, or the checks of tags that the comment needs (`Stream.dueChecks`). Which checks were
asked for is seen with a validator that notes them (`TagValidator.noting`). This changes nothing in the file
(`SourceFile.run_noting`).

The check reads the tokens of the file only, so a second one reports the same findings again. The metric is
recorded again too, but the first values stay.
-/

namespace DocLint

/-! ## Validators -/

/-- Checks nothing. -/
def TagValidator.silent : TagValidator where
  checkReturn _ _ _ := pure ()
  checkThrows _ _ _ := pure ()
  checkParameters _ _ _ := pure ()

/-- Notes which checks are asked for, and makes them. -/
def TagValidator.noting (validator : TagValidator) : TagValidator where
  checkReturn stream function comment := do
    Check.report (.asked .returns function comment)
    validator.checkReturn stream function comment
  checkThrows stream function comment := do
    Check.report (.asked .throws function comment)
    validator.checkThrows stream function comment
  checkParameters stream function comment := do
    Check.report (.asked .parameters function comment)
    validator.checkParameters stream function comment

/-- The validator reports findings only, and not that a comment is missing. -/
def TagValidator.Discreet (validator : TagValidator) : Prop :=
  ∀ stream comment, validator.FindsAt stream comment fun _ => True

namespace TagValidator

/-- To record the calls only is to note them and check nothing. -/
theorem silent_noting : silent.noting = recording := rfl

theorem silent_discreet : silent.Discreet := fun _ _ =>
  ⟨fun _ => Check.each_of_nil rfl, fun _ => Check.each_of_nil rfl, fun _ => Check.each_of_nil rfl⟩

theorem standard_discreet : standard.Discreet := fun _ _ =>
  standard_findsAt ⟨fun _ => trivial, fun _ _ _ => trivial⟩

end TagValidator

/-! ## Observing events -/

/-- The check of tags that an event asks for, the function and the start of the comment. -/
def Event.call? : Event → Option (TagCheck × Int × Int)
  | asked check function comment => some (check, function, comment)
  | _ => none

/-- The finding of an event, if it is that a comment is missing. -/
def Event.missing? (event : Event) : Option Diagnostic := event.diagnostic?.filter (·.code == "Missing")

namespace Check

variable {α β γ : Type} {check : Check α} {next : α → Check β}

/-- The observer overlooks the findings in comments. -/
def Overlooks (observe : Event → Option γ) : Prop :=
  ∀ diagnostic : Diagnostic, diagnostic.code ≠ "Missing" → observe (.found diagnostic) = none

theorem Each.overlooked {place : Int → Prop} (h : check.Finds place) {observe : Event → Option γ}
    (ho : Overlooks observe) : check.events.filterMap observe = [] := by
  refine List.filterMap_eq_nil_iff.2 fun event hm => ?_
  obtain ⟨diagnostic, rfl, -, hcode⟩ := h.of_mem event hm
  exact ho diagnostic hcode

/-- Of an event and findings behind it, the event is seen. -/
theorem report_observed {place : Int → Prop} {check : Check α} (h : check.Finds place)
    {observe : Event → Option γ} (ho : Overlooks observe) (event : Event) :
    (report event >>= fun _ => check).events.filterMap observe = [event].filterMap observe := by
  have hreport : (report event).result = .ok () := rfl
  rw [bind_of_ok hreport, List.filterMap_append, h.overlooked ho, List.append_nil]
  rfl

theorem call?_overlooks : Overlooks Event.call? := fun _ _ => rfl

theorem measure?_overlooks : Overlooks Event.measure? := fun _ _ => rfl

theorem missing?_overlooks : Overlooks Event.missing? := by
  intro diagnostic hcode
  simpa [Event.missing?, Event.diagnostic?] using hcode

/-- The check without the notes of what was asked for. -/
def unasked (check : Check α) : Check α := ⟨check.events.filter (·.call?.isNone), check.result⟩

theorem unasked_bind : (check >>= next).unasked = (check.unasked >>= fun value => (next value).unasked) := by
  cases hr : check.result with
  | error fault =>
    have hr' : check.unasked.result = .error fault := hr
    rw [bind_of_error hr, bind_of_error hr']
    rfl
  | ok value =>
    have hr' : check.unasked.result = .ok value := hr
    rw [bind_of_ok hr, bind_of_ok hr', unasked, unasked, unasked, List.filter_append]

theorem Each.unasked_eq (h : check.Each fun event => event.call? = none) : check.unasked = check := by
  refine ext (List.filter_eq_self.2 fun event hm => ?_) rfl
  rw [h.of_mem event hm]
  rfl

theorem Each.unasked_of_finds {place : Int → Prop} (h : check.Finds place) : check.unasked = check := by
  refine Each.unasked_eq (h.mono fun event hfound => ?_)
  obtain ⟨diagnostic, rfl, -⟩ := hfound
  rfl

@[simp] theorem unasked_quiet (result : Except Fault α) : (quiet result).unasked = quiet result := rfl

end Check

/-! ## The check of a function -/

namespace Stream

variable {stream : Stream} {validator : TagValidator} {γ : Type} {observe : Event → Option γ}

/-- What the metric says about the function at an index. -/
def commentValue (stream : Stream) (i : Nat) : String :=
  if (stream.locateComment i).isNone then "no" else "yes"

/-- The check of `@return` is due unless the comment is inherited or no value is returned. -/
def returnDue (stream : Stream) (i : Nat) (comment : Int) : List (TagCheck × Int × Int) :=
  if (stream.inheritsDoc i).toOption == some false && (stream.returnsValue i).toOption == some true then
    [(.returns, i, comment)]
  else []

/-- The check of `@param` is due unless the comment is inherited. -/
def parametersDue (stream : Stream) (i : Nat) (comment : Int) : List (TagCheck × Int × Int) :=
  if (stream.inheritsDoc i).toOption == some false then [(.parameters, i, comment)] else []

/-- The checks of tags that are due for the function at an index, each with the function and the start of its
comment. -/
def dueChecks (stream : Stream) (i : Nat) : List (TagCheck × Int × Int) :=
  match (stream.locateComment i).bind fun closer => (stream.readComment closer).toOption with
  | none => []
  | some comment =>
    stream.returnDue i comment.opener ++ (.throws, (i : Int), comment.opener) ::
      stream.parametersDue i comment.opener

/-- A request to check tags, as an event. -/
def askedFor (call : TagCheck × Int × Int) : Event := .asked call.1 call.2.1 call.2.2

theorem askedFor_unobserved (h : ∀ call, observe (askedFor call) = none) (calls : List (TagCheck × Int × Int)) :
    (calls.map askedFor).filterMap observe = [] := by
  rw [List.filterMap_map]
  exact List.filterMap_eq_nil_iff.2 fun call _ => h call

/-- A function without a comment is reported once, measured, and that is all. -/
theorem checkFunction_of_none {i : Nat} (hi : i ∈ stream.functions) (hloc : stream.locateComment i = none)
    (validator : TagValidator) :
    ∃ diagnostic : Diagnostic, diagnostic.code = "Missing" ∧ diagnostic.position = i ∧
      stream.checkFunction validator i = ⟨[.found diagnostic, .measured i commentMetric "no"], .ok ()⟩ := by
  obtain ⟨token, ht, hk⟩ := mem_functions.1 hi
  obtain ⟨name, hname⟩ := exists_declaredName ht hk
  rw [checkFunction, hloc, checkMissing, hname, Check.quiet_ok_bind, reportError, report_at ht]
  exact ⟨_, rfl, rfl, rfl⟩

section Comment

variable {i : Nat} {comment : Int} (hs : stream.Sound) (hi : i ≤ stream.size)
  (hv : validator.FindsAt stream comment fun _ => True) (ho : Check.Overlooks observe)
include hs hi hv ho

theorem askReturn_observed (hok : (stream.askReturn validator.noting i comment).result = .ok ()) :
    (stream.askReturn validator.noting i comment).events.filterMap observe =
      ((stream.returnDue i comment).map askedFor).filterMap observe := by
  obtain ⟨inherits, hinherits⟩ := hs.exists_inheritsDoc hi
  rw [askReturn, hinherits, Check.quiet_ok_bind] at hok ⊢
  rw [returnDue, hinherits]
  cases inherits with
  | true => rfl
  | false =>
    cases hvalue : stream.returnsValue i with
    | error fault =>
      rw [hvalue] at hok
      cases hok
    | ok value =>
      cases value with
      | false => rfl
      | true => exact Check.report_observed (hv.returns i) ho (askedFor (.returns, (i : Int), comment))

theorem askParameters_observed :
    (stream.askParameters validator.noting i comment).events.filterMap observe =
      ((stream.parametersDue i comment).map askedFor).filterMap observe := by
  obtain ⟨inherits, hinherits⟩ := hs.exists_inheritsDoc hi
  rw [askParameters, parametersDue, hinherits, Check.quiet_ok_bind]
  cases inherits with
  | true => rfl
  | false => exact Check.report_observed (hv.parameters i) ho (askedFor (.parameters, (i : Int), comment))

end Comment

/-- Apart from findings in the comment, a function with a comment is measured, and the checks that are due are
asked for. -/
theorem Sound.checkComment_observed (hs : stream.Sound) (hv : validator.Discreet)
    (ho : Check.Overlooks observe) {i c : Nat} (hi : i ≤ stream.size)
    (hloc : stream.locateComment i = some c)
    (hok : (stream.checkComment validator.noting i c).result = .ok ()) :
    (stream.checkComment validator.noting i c).events.filterMap observe =
      (.measured i commentMetric "yes" :: (stream.dueChecks i).map askedFor).filterMap observe := by
  obtain ⟨o, comment, hreads⟩ := hs.exists_reads hloc
  have hchecks := hv stream comment.opener
  have hsees : (stream.checkSees comment).Finds fun _ => True := checkSees_finds fun _ _ => trivial
  have hthrows := Check.report_observed (hchecks.throws i) ho (askedFor (.throws, (i : Int), comment.opener))
  have hparameters := askParameters_observed hs hi hchecks ho
  have hdue : (stream.dueChecks i).map askedFor = (stream.returnDue i comment.opener).map askedFor ++
      ([askedFor (.throws, (i : Int), comment.opener)] ++
        (stream.parametersDue i comment.opener).map askedFor) := by
    rw [dueChecks, hloc, Option.bind_some, hreads.read]
    exact List.map_append
  rw [checkComment] at hok ⊢
  simp only [hreads.read, Check.quiet_ok_bind] at hok ⊢
  -- nothing stopped the check, so its events are those of its parts
  obtain ⟨_, -, hok, hmeasured⟩ := Check.bind_eq_ok hok
  obtain ⟨_, -, hok, hrest⟩ := Check.bind_eq_ok hok
  obtain ⟨_, hreturns, hok, hrest'⟩ := Check.bind_eq_ok hok
  obtain ⟨_, -, hok, hrest''⟩ := Check.bind_eq_ok hok
  rw [← List.singleton_append, hdue, hmeasured, hrest, hrest', hrest'']
  simp only [List.filterMap_append, hsees.overlooked ho, List.nil_append, hparameters,
    askReturn_observed hs hi hchecks ho hreturns]
  exact congrArg _ (congrArg _ (congrArg (· ++ _) hthrows))

/-! ## Notes change nothing -/

theorem noted_unasked {place : Int → Prop} {check : Check Unit} (h : check.Finds place)
    (call : TagCheck × Int × Int) :
    (Check.report (askedFor call) >>= fun _ => check).unasked = check := by
  rw [Check.unasked_bind, h.unasked_of_finds]
  rfl

theorem askReturn_unasked {comment : Int} (hv : validator.FindsAt stream comment fun _ => True)
    (function : Int) :
    (stream.askReturn validator.noting function comment).unasked =
      stream.askReturn validator function comment := by
  rw [askReturn, askReturn, Check.unasked_bind, Check.unasked_quiet]
  congr 1
  funext inherits
  split
  · rfl
  · rw [Check.unasked_bind, Check.unasked_quiet]
    congr 1
    funext value
    split
    · exact noted_unasked (hv.returns function) (.returns, function, comment)
    · rfl

theorem askParameters_unasked {comment : Int} (hv : validator.FindsAt stream comment fun _ => True)
    (function : Int) :
    (stream.askParameters validator.noting function comment).unasked =
      stream.askParameters validator function comment := by
  rw [askParameters, askParameters, Check.unasked_bind, Check.unasked_quiet]
  congr 1
  funext inherits
  split
  · rfl
  · exact noted_unasked (hv.parameters function) (.parameters, function, comment)

theorem checkComment_unasked (hv : validator.Discreet) (function closer : Int) :
    (stream.checkComment validator.noting function closer).unasked =
      stream.checkComment validator function closer := by
  have hsees : ∀ comment, (stream.checkSees comment).Finds fun _ => True := fun comment =>
    checkSees_finds fun _ _ => trivial
  have hthrows : ∀ comment, (validator.noting.checkThrows stream function comment).unasked =
      validator.checkThrows stream function comment := fun comment =>
    noted_unasked ((hv stream comment).throws function) (.throws, function, comment)
  have hmeasured : (Check.report (.measured function commentMetric "yes")).unasked =
      Check.report (.measured function commentMetric "yes") := rfl
  simp only [checkComment, Check.unasked_bind, Check.unasked_quiet, hmeasured,
    (hsees _).unasked_of_finds, askReturn_unasked (hv stream _), hthrows,
    askParameters_unasked (hv stream _)]

theorem checkFunction_unasked (hv : validator.Discreet) (function : Int) :
    (stream.checkFunction validator.noting function).unasked =
      stream.checkFunction validator function := by
  rw [checkFunction, checkFunction]
  split
  · exact Check.Each.unasked_eq (checkMissing_each rfl fun _ _ _ => rfl)
  · exact checkComment_unasked hv ..

theorem checkAll_unasked (hv : validator.Discreet) (functions : List Nat) :
    (stream.checkAll validator.noting functions).unasked = stream.checkAll validator functions := by
  induction functions with
  | nil => rfl
  | cons i rest ih =>
    rw [checkAll, checkAll, Check.unasked_bind, checkFunction_unasked hv, ih]

end Stream

namespace SourceFile

theorem foldl_after_unasked (file : SourceFile) (events : List Event) :
    (events.filter (·.call?.isNone)).foldl after file = events.foldl after file := by
  induction events generalizing file with
  | nil => rfl
  | cons event rest ih =>
    cases event with
    | found diagnostic => exact ih (file.after (.found diagnostic))
    | measured place name value => exact ih (file.after (.measured place name value))
    | asked => exact ih file

/-- To note what is asked for changes nothing in the file. -/
theorem run_noting {validator : TagValidator} (hv : validator.Discreet) (file : SourceFile)
    (stream : Stream) :
    file.run (stream.checkFunctions validator.noting) = file.run (stream.checkFunctions validator) := by
  rw [Stream.checkFunctions, Stream.checkFunctions, ← Stream.checkAll_unasked hv]
  exact (foldl_after_unasked file _).symm

end SourceFile

/-! ## The check of all functions -/

namespace Stream

variable {stream : Stream} {validator : TagValidator}

/-- The metric of a stream: a value for each function. -/
def commentMetrics (stream : Stream) : Metrics :=
  if stream.functions.isEmpty then []
  else [(commentMetric, stream.functions.map fun i : Nat => ((i : Int), stream.commentValue i))]

theorem recordAll_commentMetrics (stream : Stream) :
    Metrics.recordAll []
      (stream.functions.map fun i : Nat => ((i : Int), commentMetric, stream.commentValue i)) =
        stream.commentMetrics := by
  have hsorted := stream.functions_sorted
  rw [commentMetrics]
  cases hfunctions : stream.functions with
  | nil => rfl
  | cons first rest =>
    rw [hfunctions] at hsorted
    obtain ⟨hlater, hsorted⟩ := List.pairwise_cons.1 hsorted
    refine Metrics.recordAll_fresh commentMetric stream.commentValue hsorted fun i hi entry hm => ?_
    obtain rfl := List.mem_singleton.1 hm
    intro heq
    exact Nat.ne_of_lt (hlater i hi) (Int.ofNat.inj heq)

theorem commentMetrics_value? {i : Nat} (hi : i ∈ stream.functions) :
    stream.commentMetrics.value? commentMetric i = some (stream.commentValue i) := by
  have hne : ¬ stream.functions.isEmpty = true := by
    intro hempty
    rw [List.isEmpty_iff.1 hempty] at hi
    cases hi
  rw [commentMetrics, if_neg hne]
  exact Table.get?_map_cast.2 ⟨i, hi, rfl, rfl⟩

/-- What is seen of one function: its metric, the checks that are due, and that its comment is missing, if
it is. -/
theorem Sound.checkFunction_observed (hs : stream.Sound) (hv : validator.Discreet) {i : Nat}
    (hi : i ∈ stream.functions) (hok : (stream.checkFunction validator.noting i).result = .ok ()) :
    (stream.checkFunction validator.noting i).events.filterMap Event.measure? =
        [((i : Int), commentMetric, stream.commentValue i)] ∧
      (stream.checkFunction validator.noting i).events.filterMap Event.call? = stream.dueChecks i ∧
      ((stream.checkFunction validator.noting i).events.filterMap Event.missing?).map (·.position) =
        if (stream.locateComment i).isNone then [(i : Int)] else [] := by
  cases hloc : stream.locateComment i with
  | none =>
    obtain ⟨diagnostic, hcode, hposition, hmissing⟩ := checkFunction_of_none hi hloc validator.noting
    have hseen : Event.missing? (.found diagnostic) = some diagnostic := by
      simp [Event.missing?, Event.diagnostic?, hcode]
    simp only [hmissing, commentValue, dueChecks, hloc]
    refine ⟨rfl, rfl, ?_⟩
    rw [List.filterMap_cons_some hseen]
    simp [Event.missing?, Event.diagnostic?, hposition]
  | some c =>
    obtain ⟨token, ht, -⟩ := mem_functions.1 hi
    have hsize := Nat.le_of_lt (lt_size ht)
    rw [checkFunction, hloc] at hok ⊢
    have hvalue : stream.commentValue i = "yes" := by
      rw [commentValue, hloc]
      rfl
    refine ⟨?_, ?_, ?_⟩
    · have hmeasured : Event.measure? (.measured i commentMetric "yes") =
          some ((i : Int), commentMetric, "yes") := rfl
      rw [hs.checkComment_observed hv Check.measure?_overlooks hsize hloc hok,
        List.filterMap_cons_some hmeasured, askedFor_unobserved (fun _ => rfl), hvalue]
    · rw [hs.checkComment_observed hv Check.call?_overlooks hsize hloc hok,
        List.filterMap_cons_none rfl, List.filterMap_map]
      exact List.filterMap_some
    · rw [hs.checkComment_observed hv Check.missing?_overlooks hsize hloc hok,
        List.filterMap_cons_none rfl, askedFor_unobserved (fun _ => rfl)]
      rfl

theorem checkFunctions_noting_result (hv : validator.Discreet) :
    (stream.checkFunctions validator.noting).result = (stream.checkFunctions validator).result := by
  rw [checkFunctions, checkFunctions, ← checkAll_unasked hv]
  rfl

/-- What is seen of all functions. -/
theorem Sound.checkFunctions_observed (hs : stream.Sound) (hv : validator.Discreet)
    (hok : (stream.checkFunctions validator.noting).result = .ok ()) :
    (stream.checkFunctions validator.noting).events.filterMap Event.measure? =
        (stream.functions.map fun i : Nat => ((i : Int), commentMetric, stream.commentValue i)) ∧
      (stream.checkFunctions validator.noting).events.filterMap Event.call? =
        stream.functions.flatMap stream.dueChecks ∧
      ((stream.checkFunctions validator.noting).events.filterMap Event.missing?).map (·.position) =
        (stream.functions.filter fun i : Nat => (stream.locateComment i).isNone).map Int.ofNat := by
  obtain ⟨hevents, hresults⟩ := checkAll_of_ok hok
  have hseen := fun i hi => hs.checkFunction_observed hv hi (hresults i hi)
  rw [checkFunctions, hevents, List.filterMap_flatMap, List.filterMap_flatMap, List.filterMap_flatMap]
  refine ⟨?_, List.flatMap_congr fun i hi => (hseen i hi).2.1, ?_⟩
  · rw [List.flatMap_congr fun i hi => (hseen i hi).1]
    exact List.map_eq_flatMap.symm
  · rw [List.map_flatMap, List.flatMap_congr fun i hi => (hseen i hi).2.2]
    induction stream.functions with
    | nil => rfl
    | cons i rest ih =>
      rw [List.flatMap_cons, List.filter_cons, ih]
      split
      · rfl
      · rfl

/-- At each function without a comment one finding says so, and at the others none. -/
theorem Sound.count_missing (hs : stream.Sound) (hv : validator.Discreet)
    (hok : (stream.checkFunctions validator.noting).result = .ok ()) {i : Nat} (hi : i ∈ stream.functions) :
    ((stream.checkFunctions validator.noting).events.filterMap Event.diagnostic?).countP
        (fun diagnostic => diagnostic.position == (i : Int) && diagnostic.code == "Missing") =
      if (stream.locateComment i).isNone then 1 else 0 := by
  obtain ⟨-, -, hmissing⟩ := hs.checkFunctions_observed hv hok
  have hnodup : (stream.functions.filter fun j : Nat => (stream.locateComment j).isNone).Nodup :=
    (stream.functions_sorted.imp Nat.ne_of_lt).filter _
  have hcast : Function.Injective Int.ofNat := fun _ _ heq => Int.ofNat.inj heq
  calc _ = (((stream.checkFunctions validator.noting).events.filterMap Event.missing?).map
        (·.position)).count (i : Int) := by
        rw [← List.countP_filter, List.filter_filterMap, List.count, List.countP_map]
        rfl
    _ = (stream.functions.filter fun j : Nat => (stream.locateComment j).isNone).count i := by
        rw [hmissing]
        exact List.count_map_of_injective _ _ hcast i
    _ = _ := by
        rw [hnodup.count]
        simp [hi]

end Stream

namespace SourceFile

/-- What the check of all functions of a file with a validator leaves in the file, and what it asks for. -/
structure Recorded (file checked : SourceFile) (validator : TagValidator) : Prop where
  /-- With notes of what is asked for it is the same, for any findings and metrics that are there before. -/
  noted : (file.stream.checkFunctions validator.noting).result = .ok () ∧ ∀ start : SourceFile,
    start.run (file.stream.checkFunctions validator.noting) = start.run (file.stream.checkFunctions validator)
  /-- The metric is measured once for each function, in order, and for nothing else. -/
  measured : (file.stream.checkFunctions validator.noting).events.filterMap Event.measure? =
      (file.stream.functions.map fun i : Nat => ((i : Int), commentMetric, file.stream.commentValue i)) ∧
    checked.metrics = file.stream.commentMetrics
  /-- It says no where there is no comment, and there one finding says that it is missing. -/
  missing : ∀ i ∈ file.stream.functions,
    (checked.metrics.value? commentMetric (i : Int) = some "no" ↔ file.stream.locateComment (i : Int) = none) ∧
    (file.stream.locateComment (i : Int) = none ↔ checked.diagnostics.countP (fun diagnostic =>
      diagnostic.position == (i : Int) && diagnostic.code == "Missing") = 1)
  /-- The events are those of the functions, in order. A function without a comment has no others. -/
  events : (file.stream.checkFunctions validator.noting).events =
      (file.stream.functions.flatMap fun i : Nat => (file.stream.checkFunction validator.noting i).events) ∧
    ∀ i ∈ file.stream.functions, file.stream.locateComment (i : Int) = none →
      ∃ diagnostic : Diagnostic, diagnostic.code = "Missing" ∧ diagnostic.position = (i : Int) ∧
        (file.stream.checkFunction validator.noting i).events =
          [.found diagnostic, .measured i commentMetric "no"]
  /-- The checks that are due are asked for, function by function. -/
  calls : (file.stream.checkFunctions validator.noting).events.filterMap Event.call? =
    file.stream.functions.flatMap file.stream.dueChecks
  /-- A second check adds the same findings again, and leaves the metrics. -/
  again : checked.stream = file.stream ∧ (checked.stream.checkFunctions validator).result = .ok () ∧
    (checked.run (checked.stream.checkFunctions validator)).diagnostics =
      checked.diagnostics ++ checked.diagnostics ∧
    (checked.run (checked.stream.checkFunctions validator)).metrics = checked.metrics

/-- A check that is not stopped records what the comments of the functions call for, whatever the validator finds
in them, and a second check changes nothing but that the findings are there twice. -/
theorem check_recorded {source filename : Text} {file : SourceFile} {validator : TagValidator}
    (h : ofSource source filename = .ok file) (hv : validator.Discreet)
    (hok : (file.stream.checkFunctions validator).result = .ok ()) :
    Recorded file (file.run (file.stream.checkFunctions validator)) validator := by
  obtain ⟨stream, hstream, rfl⟩ := ofSource_eq_ok.1 h
  have hs := Stream.sound hstream
  have hnoted : (stream.checkFunctions validator.noting).result = .ok () :=
    (Stream.checkFunctions_noting_result hv).trans hok
  obtain ⟨hmeasured, hcalls, -⟩ := hs.checkFunctions_observed hv hnoted
  obtain ⟨hevents, -⟩ := Stream.checkAll_of_ok hnoted
  have hrun := fun file : SourceFile => run_noting hv file stream
  have hmetrics : ∀ file : SourceFile, (file.run (stream.checkFunctions validator)).metrics =
      file.metrics.recordAll
        (stream.functions.map fun i : Nat => ((i : Int), commentMetric, stream.commentValue i)) := by
    intro file
    rw [← hrun, ← hmeasured]
    exact foldl_after_recordAll file _
  have hdiagnostics : ∀ file : SourceFile, (file.run (stream.checkFunctions validator)).diagnostics =
      file.diagnostics ++ (stream.checkFunctions validator.noting).events.filterMap Event.diagnostic? := by
    intro file
    rw [← hrun]
    exact foldl_after_diagnostics file _
  have hfresh : (run { source, filename, stream } (stream.checkFunctions validator)).metrics =
      stream.commentMetrics := (hmetrics _).trans stream.recordAll_commentMetrics
  refine
    { noted := ⟨hnoted, hrun⟩
      measured := ⟨hmeasured, hfresh⟩
      missing := ?_
      events := ?_
      calls := hcalls
      again := ?_ }
  · intro i hi
    have hcount := hs.count_missing hv hnoted hi
    rw [hfresh, Stream.commentMetrics_value? hi, hdiagnostics, List.nil_append, hcount, Stream.commentValue]
    cases stream.locateComment i with
    | none => simp
    | some c => simp
  · refine ⟨hevents, fun i hi hloc => ?_⟩
    obtain ⟨diagnostic, hcode, hposition, hmissing⟩ := Stream.checkFunction_of_none hi hloc validator.noting
    exact ⟨diagnostic, hcode, hposition, congrArg Check.events hmissing⟩
  · rw [run_stream]
    refine ⟨rfl, hok, ?_, ?_⟩
    · rw [hdiagnostics, hdiagnostics]
      rfl
    · rw [hmetrics, hfresh]
      refine Metrics.recordAll_of_some fun entry hm => ?_
      obtain ⟨i, hi, rfl⟩ := List.mem_map.1 hm
      exact ⟨_, Stream.commentMetrics_value? hi⟩

/-- A function without a comment, one that inherits it, and one with a comment of its own, checked with the
standard validator and with one that records its calls. -/
theorem check_recorded_three :
    ∃ file, ofSource ("<?php function a() \x7b\x7d /** \x7b@inheritdoc\x7d */ function b($x) \x7b return 1; \x7d " ++
        "/** c */ function c($x) \x7b return $x; \x7d").toList [] = .ok file ∧
      Recorded file (file.run (file.stream.checkFunctions .standard)) .standard ∧
      Recorded file (file.run (file.stream.checkFunctions .silent)) .silent ∧
      (file.run (file.stream.checkFunctions .standard)).metrics =
        [(commentMetric, [(2, "no"), (17, "yes"), (39, "yes")])] ∧
      (file.stream.checkFunctions .recording).events.filterMap Event.call? =
        [(.throws, 17, 11), (.returns, 39, 33), (.throws, 39, 33), (.parameters, 39, 33)] := by
  have hrun : (ofSource ("<?php function a() \x7b\x7d /** \x7b@inheritdoc\x7d */ function b($x) \x7b return 1; \x7d " ++
      "/** c */ function c($x) \x7b return $x; \x7d").toList []).toOption.any (fun file =>
        (file.stream.checkFunctions .standard).result.isOk && (file.stream.checkFunctions .silent).result.isOk &&
        file.stream.commentMetrics == [(commentMetric, [(2, "no"), (17, "yes"), (39, "yes")])] &&
        file.stream.functions.flatMap file.stream.dueChecks ==
          [(.throws, 17, 11), (.returns, 39, 33), (.throws, 39, 33), (.parameters, 39, 33)]) = true := by
    decide +kernel
  obtain ⟨file, h, hat⟩ := exists_eq_ok_of_any hrun
  simp only [Bool.and_eq_true, beq_iff_eq] at hat
  obtain ⟨⟨⟨hstandard, hsilent⟩, hmetrics⟩, hdue⟩ := hat
  obtain ⟨_, hstandard⟩ := exists_eq_ok hstandard
  obtain ⟨_, hsilent⟩ := exists_eq_ok hsilent
  have hchecked := check_recorded h TagValidator.standard_discreet hstandard
  have hcalled := check_recorded h TagValidator.silent_discreet hsilent
  refine ⟨file, h, hchecked, hcalled, hchecked.measured.2.trans hmetrics, ?_⟩
  rw [← TagValidator.silent_noting]
  exact hcalled.calls.trans hdue

end SourceFile

end DocLint
