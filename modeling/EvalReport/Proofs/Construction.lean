import EvalReport.Proofs.Availability
import EvalReport.Proofs.Doubles

/-! When a reporter is made. Limits of the settings are looked at first, then the names of the
labels, then what the metric needs of them; the first that is broken is the fault. A threshold
keeps its limit exactly if it is a number between zero and one, which no NaN is. -/
namespace EvalReport

/-! ### Thresholds -/

namespace Double

open Float.Model Float.Model.UnpackedFloat

def Amounts (f : Float) (v : ℚ) : Prop :=
  match f.toModel.unpack with
  | .zero _ => v = 0
  | .finite .positive m e _ => v = m * 2 ^ e
  | .finite .negative m e _ => v = -(m * 2 ^ e)
  | _ => False

theorem unpackedBounds {f : Float} {s : Sign} {m : Nat} {e : Int} {positive : 0 < m}
    (unpacked : f.toModel.unpack = .finite s m e positive) :
    m < 2 ^ 53 ∧ (-1074 < e → 2 ^ 52 ≤ m) := by
  change UnpackedFloat.unpack Format.binary64 f.toModel.toBits.toBitVec = _ at unpacked
  rw [UnpackedFloat.unpack] at unpacked
  dsimp only at unpacked
  split at unpacked
  · split at unpacked <;> contradiction
  · split at unpacked
    · split at unpacked
      · contradiction
      · rename_i subnormal _
        obtain ⟨_, rfl, rfl⟩ := UnpackedFloat.finite.inj unpacked
        refine ⟨(BitVec.isLt _).trans (by decide), fun above => ?_⟩
        rw [subnormal] at above
        exact absurd above (by decide)
    · obtain ⟨_, rfl, _⟩ := UnpackedFloat.finite.inj unpacked
      have appended : ∀ cut : BitVec 52, (1#1 ++ cut).toNat = 2 ^ 52 + cut.toNat := by
        intro cut
        rw [BitVec.toNat_append, ← Nat.shiftLeft_add_eq_or_of_lt cut.isLt, Nat.shiftLeft_eq]
        rfl
      have length : (@unpackMantissa Format.binary64 f.toModel.toBits.toBitVec).toNat < 2 ^ 52 :=
        BitVec.isLt _
      have full := appended (@unpackMantissa Format.binary64 f.toModel.toBits.toBitVec)
      constructor
      · exact lt_of_eq_of_lt full (by omega)
      · exact fun _ => le_of_le_of_eq (Nat.le_add_right _ _) full.symm

theorem finiteAtMostOne {m : Nat} {e : Int} (narrow : m < 2 ^ 53)
    (full : -1074 < e → 2 ^ 52 ≤ m) :
    ((compare e (-52)).then (compare m (2 ^ 52))).isLE = true ↔ (m : ℚ) * 2 ^ e ≤ 1 := by
  rcases lt_trichotomy e (-52) with low | rfl | high
  · rw [compare_lt_iff_lt.mpr low]
    refine iff_of_true rfl ?_
    calc (m : ℚ) * 2 ^ e ≤ 2 ^ 53 * 2 ^ (-53 : Int) := by
          gcongr
          · exact_mod_cast narrow.le
          · norm_num
          · omega
      _ = 1 := by norm_num
  · have unit : (m : ℚ) * 2 ^ (-52 : Int) ≤ 1 ↔ m ≤ 2 ^ 52 := by
      rw [zpow_neg, ← div_eq_mul_inv, div_le_one (by positivity)]
      exact_mod_cast Iff.rfl
    rw [unit, compare_eq_iff_eq.mpr rfl]
    exact Nat.isLE_compare
  · rw [compare_gt_iff_gt.mpr high]
    refine iff_of_false Bool.false_ne_true (not_le.mpr ?_)
    calc (1 : ℚ) < 2 ^ 53 * 2 ^ (-52 : Int) := by norm_num
      _ ≤ m * 2 ^ e := nextExponent high (full (by omega))

theorem leUnpacked (f g : Float) : f ≤ g ↔ f.toModel.unpack.le g.toModel.unpack = true :=
  decide_eq_true_iff (p := f.toModel ≤ g.toModel)

end Double

def Double.Probability (x : Float) : Prop := ∃ v, Double.Amounts x v ∧ 0 ≤ v ∧ v ≤ 1

open Double Float.Model in
theorem probabilityExact (x : Float) : Config.isProbability x = true ↔ Probability x := by
  have zero : (0 : Float).toModel.unpack = .zero .positive := rfl
  have one : (1 : Float).toModel.unpack = .finite .positive (2 ^ 52) (-52) (by decide) := rfl
  rw [Config.isProbability, Bool.and_eq_true, decide_eq_true_eq, decide_eq_true_eq, leUnpacked,
    leUnpacked, zero, one]
  unfold Probability Amounts
  cases unpacked : x.toModel.unpack with
  | infinity s => cases s <;> simp [UnpackedFloat.le, UnpackedFloat.compare]
  | notANumber => simp [UnpackedFloat.le, UnpackedFloat.compare]
  | zero s => cases s <;> simp [UnpackedFloat.le, UnpackedFloat.compare]
  | finite s m e positive =>
    obtain ⟨narrow, full⟩ := unpackedBounds unpacked
    have amount : (0 : ℚ) < m * 2 ^ e := by positivity
    cases s with
    | positive =>
      have unit := finiteAtMostOne narrow full
      simp only [exists_eq_left, amount.le, true_and]
      rw [← unit]
      exact and_iff_right rfl
    | negative =>
      refine iff_of_false (fun both => by cases both.1) ?_
      rintro ⟨v, rfl, above, _⟩
      linarith

/-! ### Limits -/

namespace Config

theorem zeroText : Decimal.natText 0 = "0" := by
  rw [Decimal.natText, Decimal.digits]
  rfl

def InLimits (c : Config) : Prop := (∀ x ∈ c.thresholds, Double.Probability x) ∧ 1 ≤ c.topK

inductive Broken (c : Config) : ParameterCause → Prop where
  | threshold {before after : List Float} {x : Float} (listed : c.thresholds = before ++ x :: after)
      (sound : ∀ y ∈ before, Double.Probability y) (outside : ¬ Double.Probability x) :
      Broken c (.outside .thresholds (Decimal.plain.text (binaryOfFloat x)))
  | count (sound : ∀ x ∈ c.thresholds, Double.Probability x) (none : c.topK = 0) :
      Broken c (.outside .topK "0")

theorem outsideFound {xs : List Float} {x : Float} :
    xs.find? (fun x => !isProbability x) = some x ↔ ∃ before after, xs = before ++ x :: after ∧
      (∀ y ∈ before, Double.Probability y) ∧ ¬ Double.Probability x := by
  simp only [List.find?_eq_some_iff_append, Bool.not_eq_true', ← Bool.not_eq_true,
    probabilityExact, not_not]
  constructor
  · rintro ⟨outside, before, after, listed, sound⟩
    exact ⟨before, after, listed, sound, outside⟩
  · rintro ⟨before, after, listed, sound, outside⟩
    exact ⟨outside, before, after, listed, sound⟩

theorem outsideNone {xs : List Float} : xs.find? (fun x => !isProbability x) = none ↔
    ∀ x ∈ xs, Double.Probability x := by
  simp only [List.find?_eq_none, Bool.not_eq_true', Bool.not_eq_false, probabilityExact]

theorem validateOk (c : Config) : c.validate = .ok () ↔ c.InLimits := by
  unfold validate InLimits
  split
  · rename_i found
    obtain ⟨before, after, listed, _, outside⟩ := outsideFound.mp found
    refine iff_of_false (by simp) fun within => outside (within.1 _ ?_)
    rw [listed]
    exact List.mem_append_right _ List.mem_cons_self
  · rename_i found
    rw [outsideNone] at found
    split
    · simp [*]
    · rename_i some
      simp only [true_iff]
      exact ⟨found, Nat.pos_of_ne_zero some⟩

theorem validateFault (c : Config) (fault : Fault) : c.validate = .error fault ↔
    ∃ cause, c.Broken cause ∧ fault = .invalidParameter cause := by
  unfold validate
  split
  · rename_i x found
    have first := outsideFound.mp found
    constructor
    · intro failed
      obtain ⟨before, after, listed, sound, outside⟩ := first
      exact ⟨_, .threshold listed sound outside, (Except.error.inj failed).symm⟩
    · rintro ⟨_, broken, rfl⟩
      cases broken with
      | threshold listed sound outside =>
        have same := found.symm.trans (outsideFound.mpr ⟨_, _, listed, sound, outside⟩)
        rw [Option.some.inj same]
      | count sound _ =>
        rw [outsideNone.mpr sound] at found
        contradiction
  · rename_i found
    have sound := outsideNone.mp found
    split
    · rename_i none
      constructor
      · intro failed
        refine ⟨_, .count sound none, (Except.error.inj failed).symm.trans ?_⟩
        rw [none, zeroText]
      · rintro ⟨_, broken, rfl⟩
        cases broken with
        | threshold listed _ outside =>
          exact absurd (sound _ (listed ▸ List.mem_append_right _ List.mem_cons_self)) outside
        | count _ _ => rw [none, zeroText]
    · rename_i some
      refine iff_of_false (by simp) ?_
      rintro ⟨_, broken, rfl⟩
      cases broken with
      | threshold listed _ outside =>
        exact outside (sound _ (listed ▸ List.mem_append_right _ List.mem_cons_self))
      | count _ none => exact some none

theorem brokenLimits {c : Config} {cause : ParameterCause} (broken : c.Broken cause) :
    ¬ c.InLimits := by
  intro within
  cases broken with
  | threshold listed _ outside =>
    exact outside (within.1 _ (listed ▸ List.mem_append_right _ List.mem_cons_self))
  | count _ none => exact absurd within.2 (by omega)

end Config

/-! ### Labels -/

theorem firstRepeatedSome {seen xs : List String} {name : String} :
    firstRepeated seen xs = some name ↔ ∃ before after, xs = before ++ name :: after ∧
      before.Nodup ∧ (∀ x ∈ before, x ∉ seen) ∧ (name ∈ before ∨ name ∈ seen) := by
  induction xs generalizing seen with
  | nil => simp [firstRepeated]
  | cons x rest ih =>
    by_cases known : x ∈ seen
    · rw [firstRepeated, if_pos (by simpa using known), Option.some.injEq]
      constructor
      · rintro rfl
        exact ⟨[], rest, rfl, List.nodup_nil, by simp, .inr known⟩
      · rintro ⟨before, after, listed, _, fresh, _⟩
        cases before with
        | nil => exact (List.cons.inj listed).1
        | cons y before =>
          obtain ⟨rfl, _⟩ := List.cons.inj listed
          exact absurd known (fresh x List.mem_cons_self)
    · rw [firstRepeated, if_neg (by simpa using known), ih]
      constructor
      · rintro ⟨before, after, rfl, distinct, fresh, again⟩
        have first : x ∉ before := fun member => fresh x member List.mem_cons_self
        refine ⟨x :: before, after, rfl, List.nodup_cons.mpr ⟨first, distinct⟩, ?_, ?_⟩
        · refine List.forall_mem_cons.mpr ⟨known, fun y member old => ?_⟩
          exact fresh y member (List.mem_cons_of_mem _ old)
        · simpa [or_assoc, or_left_comm] using again
      · rintro ⟨before, after, listed, distinct, fresh, again⟩
        cases before with
        | nil =>
          obtain ⟨rfl, _⟩ := List.cons.inj listed
          exact absurd (again.resolve_left List.not_mem_nil) known
        | cons y before =>
          obtain ⟨rfl, rfl⟩ := List.cons.inj listed
          obtain ⟨first, distinct⟩ := List.nodup_cons.mp distinct
          refine ⟨before, after, rfl, distinct, fun z member => ?_, ?_⟩
          · rintro (_ | ⟨_, old⟩)
            · exact first member
            · exact fresh z (List.mem_cons_of_mem _ member) old
          · simpa [or_assoc, or_left_comm] using again

def Repeats (labels : List String) (name : String) : Prop :=
  ∃ before after, labels = before ++ name :: after ∧ before.Nodup ∧ name ∈ before

theorem firstRepeats {labels : List String} {name : String} :
    firstRepeated [] labels = some name ↔ Repeats labels name := by
  simp [firstRepeatedSome, Repeats]

theorem repeatsTwice {labels : List String} {name : String} (repeated : Repeats labels name) :
    ¬ labels.Nodup := by
  obtain ⟨before, after, rfl, _, again⟩ := repeated
  intro distinct
  exact (List.nodup_append.mp distinct).2.2 name again name List.mem_cons_self rfl

theorem Reporter.checkLabelsExact (labels : List String) :
    checkLabels labels = .ok () ↔ labels ≠ [] ∧ labels.Nodup := by
  refine ⟨checkLabelsOk, fun facts => ?_⟩
  obtain ⟨some, distinct⟩ := facts
  rw [checkLabels, if_neg some, firstRepeatedNone.mpr ⟨distinct, by simp⟩]

theorem Reporter.checkLabelsFault (labels : List String) (fault : Fault) :
    checkLabels labels = .error fault ↔ labels = [] ∧ fault = .config .emptyCatalogue ∨
      ∃ name, Repeats labels name ∧ fault = .config (.duplicateLabel name) := by
  unfold checkLabels
  split
  · rename_i none
    subst none
    simp [Repeats, eq_comm]
  · rename_i some
    cases repeated : firstRepeated [] labels with
    | some name =>
      have only : ∀ other, Repeats labels other ↔ other = name := by
        intro other
        rw [← firstRepeats, repeated, Option.some.injEq, eq_comm]
      simp [some, only, eq_comm]
    | none =>
      have distinct := (firstRepeatedNone.mp repeated).1
      refine iff_of_false (by simp) ?_
      rintro (⟨none, _⟩ | ⟨name, twice, _⟩)
      · exact some none
      · exact repeatsTwice twice distinct

/-! ### The metric -/

namespace Criterion

def Legal (c : Criterion) (target : Option String) (labels : List String) : Prop :=
  match c with
  | accuracy => True
  | macroF1 => True
  | negativeLoss => True
  | rocAuc => labels.length = 2
  | mcc => labels.length = 2
  | labelF1 => ∃ name ∈ labels, target = some name
  | labelAveragePrecision => ∃ name ∈ labels, target = some name
  | labelRocAuc => ∃ name ∈ labels, target = some name

def boundLabel (target : Option String) : Criterion → Option String
  | labelF1 => target
  | labelAveragePrecision => target
  | labelRocAuc => target
  | _ => none

/- What a metric misses, as the cause that says so. -/
inductive Unmet (target : Option String) (labels : List String) : Criterion → ConfigCause → Prop
  where
  | binaryOnly {c : Criterion} (needs : c.precondition = .binaryLabels)
    (other : labels.length ≠ 2) :
      Unmet target labels c (.binaryOnly c.name labels.length)
  | targetUnset {c : Criterion} (needs : c.precondition = .targetLabel) (unset : target = none) :
      Unmet target labels c (.targetUnset c.name)
  | targetUnknown {c : Criterion} {name : String} (needs : c.precondition = .targetLabel)
      (set : target = some name) (unknown : name ∉ labels) :
      Unmet target labels c (.targetUnknown name)

theorem targetFault {c : Criterion} {target : Option String} {labels : List String}
    {fault : Fault} (needs : c.precondition = .targetLabel) :
    c.target target labels = .error fault ↔
      ∃ cause, Unmet target labels c cause ∧ fault = .config cause := by
  constructor
  · unfold Criterion.target
    split
    · intro failed
      exact ⟨_, .targetUnset needs rfl, (Except.error.inj failed).symm⟩
    · rename_i name
      split
      · intro failed
        contradiction
      · rename_i unknown
        intro failed
        exact ⟨_, .targetUnknown needs rfl (by simpa using unknown),
          (Except.error.inj failed).symm⟩
  · rintro ⟨_, unmet, rfl⟩
    cases unmet with
    | binaryOnly other _ =>
      rw [needs] at other
      contradiction
    | targetUnset _ unset => rw [unset, Criterion.target]
    | targetUnknown _ set unknown => rw [set, Criterion.target, if_neg (by simpa using unknown)]

theorem binaryFault {c : Criterion} {target : Option String} {labels : List String}
    {fault : Fault} (needs : c.precondition = .binaryLabels) :
    c.binary labels = .error fault ↔
      ∃ cause, Unmet target labels c cause ∧ fault = .config cause := by
  constructor
  · unfold binary
    split
    · intro failed
      contradiction
    · rename_i other
      intro failed
      exact ⟨_, .binaryOnly needs other, (Except.error.inj failed).symm⟩
  · rintro ⟨_, unmet, rfl⟩
    cases unmet with
    | binaryOnly _ other => rw [binary, if_neg other]
    | targetUnset other _ | targetUnknown other _ _ =>
      rw [needs] at other
      contradiction

theorem resolveFault {c : Criterion} {target : Option String} {labels : List String}
    {fault : Fault} : c.resolve target labels = .error fault ↔
      ∃ cause, Unmet target labels c cause ∧ fault = .config cause := by
  have nothing (free : c.precondition = .nothing) (s : Selection) :
      (Except.ok s : Except Fault Selection) = .error fault ↔
        ∃ cause, Unmet target labels c cause ∧ fault = .config cause := by
    refine iff_of_false (by simp) ?_
    rintro ⟨_, unmet, _⟩
    cases unmet with
    | binaryOnly needs _ | targetUnset needs _ | targetUnknown needs _ _ =>
      rw [free] at needs
      contradiction
  cases c with
  | accuracy | macroF1 | negativeLoss => exact nothing rfl _
  | rocAuc | mcc => exact mapFault.trans (binaryFault rfl)
  | labelF1 | labelAveragePrecision | labelRocAuc => exact mapFault.trans (targetFault rfl)

theorem resolveOk {c : Criterion} {target : Option String} {labels : List String}
    {s : Selection} (resolved : c.resolve target labels = .ok s) :
    c.Legal target labels ∧ s.criterion = c ∧ s.label? = c.boundLabel target := by
  cases c with
  | accuracy | macroF1 | negativeLoss =>
    cases Except.ok.inj resolved
    exact ⟨trivial, rfl, rfl⟩
  | rocAuc | mcc =>
    obtain ⟨_, two, rfl⟩ := mapOk.mp resolved
    exact ⟨binaryOk.mp two, rfl, rfl⟩
  | labelF1 | labelAveragePrecision | labelRocAuc =>
    obtain ⟨label, found, rfl⟩ := mapOk.mp resolved
    obtain ⟨set, known⟩ := targetOk.mp found
    exact ⟨⟨label, known, set⟩, rfl, set.symm⟩

theorem resolveLegal {c : Criterion} {target : Option String} {labels : List String} :
    (∃ s, c.resolve target labels = .ok s) ↔ c.Legal target labels := by
  constructor
  · rintro ⟨s, resolved⟩
    exact (resolveOk resolved).1
  · intro legal
    cases c with
    | accuracy | macroF1 | negativeLoss => exact ⟨_, rfl⟩
    | rocAuc | mcc => exact ⟨_, mapOk.mpr ⟨(), binaryOk.mpr legal, rfl⟩⟩
    | labelF1 | labelAveragePrecision | labelRocAuc =>
      obtain ⟨label, known, set⟩ := legal
      exact ⟨_, mapOk.mpr ⟨label, targetOk.mpr ⟨set, known⟩, rfl⟩⟩

end Criterion

/-! ### The reporter -/

namespace Reporter

/- The fault of a refused reporter: of all that is broken, what is looked at first. -/
inductive Refused (labels : List String) (c : Config) : Fault → Prop where
  | limit {cause : ParameterCause} (broken : c.Broken cause) :
      Refused labels c (.invalidParameter cause)
  | empty (within : c.InLimits) (none : labels = []) : Refused labels c (.config .emptyCatalogue)
  | repeated {name : String} (within : c.InLimits) (twice : Repeats labels name) :
      Refused labels c (.config (.duplicateLabel name))
  | unmet {cause : ConfigCause} (within : c.InLimits) (some : labels ≠ []) (distinct : labels.Nodup)
      (needs : c.metric.Unmet c.targetLabel labels cause) : Refused labels c (.config cause)

theorem newSteps {kind : Kind} {labels : List String} {config : Config}
    {made : Reporter × List LogLine} : Reporter.new kind labels config = .ok made ↔
      config.InLimits ∧ (labels ≠ [] ∧ labels.Nodup) ∧
        ∃ s, config.metric.resolve config.targetLabel labels = .ok s ∧
          (⟨config, labels, s, kind, {}, fileChannels config⟩, [startedNote kind labels s]) =
            made := by
  simp only [new, bindOk, Except.ok.injEq]
  constructor
  · rintro ⟨_, valid, _, checked, s, resolved, rfl⟩
    exact ⟨config.validateOk.mp valid, (checkLabelsExact labels).mp checked, s, resolved, rfl⟩
  · rintro ⟨within, named, s, resolved, rfl⟩
    exact ⟨(), config.validateOk.mpr within, (), (checkLabelsExact labels).mpr named, s, resolved,
      rfl⟩

theorem newRefused {kind : Kind} {labels : List String} {config : Config} {fault : Fault} :
    Reporter.new kind labels config = .error fault ↔ Refused labels config fault := by
  simp only [new, bindFault, reduceCtorEq, and_false, exists_false, or_false,
    Criterion.resolveFault, checkLabelsFault, Config.validateFault]
  constructor
  · rintro (⟨_, broken, rfl⟩ | ⟨_, valid, (⟨none, rfl⟩ | ⟨name, twice, rfl⟩) | ⟨_, checked, needs⟩⟩)
    · exact .limit broken
    · exact .empty (config.validateOk.mp valid) none
    · exact .repeated (config.validateOk.mp valid) twice
    · obtain ⟨some, distinct⟩ := (checkLabelsExact labels).mp checked
      obtain ⟨_, needs, rfl⟩ := needs
      exact .unmet (config.validateOk.mp valid) some distinct needs
  · intro refused
    cases refused with
    | limit broken => exact .inl ⟨_, broken, rfl⟩
    | empty within none =>
      exact .inr ⟨(), config.validateOk.mpr within, .inl (.inl ⟨none, rfl⟩)⟩
    | repeated within twice =>
      exact .inr ⟨(), config.validateOk.mpr within, .inl (.inr ⟨_, twice, rfl⟩)⟩
    | unmet within some distinct needs =>
      have checked := (checkLabelsExact labels).mpr ⟨some, distinct⟩
      exact .inr ⟨(), config.validateOk.mpr within, .inr ⟨(), checked, _, needs, rfl⟩⟩

theorem refusedCategory {labels : List String} {config : Config} {fault : Fault}
    (refused : Refused labels config fault) :
    fault.category = "invalid_parameter" ∧ ¬ config.InLimits ∨
      fault.category = "config" ∧ config.InLimits := by
  cases refused with
  | limit broken => exact .inl ⟨rfl, Config.brokenLimits broken⟩
  | empty within _ | repeated within _ | unmet within _ _ _ => exact .inr ⟨rfl, within⟩

end Reporter

theorem constructionChecked (kind : Kind) (labels : List String) (config : Config) :
    ((∃ r log, Reporter.new kind labels config = .ok (r, log)) ↔
      ((∀ x ∈ config.thresholds, Double.Probability x) ∧ 1 ≤ config.topK) ∧
        (labels ≠ [] ∧ labels.Nodup) ∧ config.metric.Legal config.targetLabel labels) ∧
    (∀ r log, Reporter.new kind labels config = .ok (r, log) →
      r.selection.criterion = config.metric ∧
        r.selection.label? = config.metric.boundLabel config.targetLabel) ∧
    ∀ fault, (Reporter.new kind labels config = .error fault ↔
        Reporter.Refused labels config fault) ∧
      (Reporter.Refused labels config fault →
        (fault.category = "invalid_parameter" ↔
          ¬ ((∀ x ∈ config.thresholds, Double.Probability x) ∧ 1 ≤ config.topK)) ∧
        (fault.category = "config" ↔
          (∀ x ∈ config.thresholds, Double.Probability x) ∧ 1 ≤ config.topK)) := by
  refine ⟨⟨?_, ?_⟩, ?_, fun fault => ⟨Reporter.newRefused, fun refused => ?_⟩⟩
  · rintro ⟨r, log, made⟩
    obtain ⟨within, named, s, resolved, _⟩ := Reporter.newSteps.mp made
    exact ⟨within, named, Criterion.resolveLegal.mp ⟨s, resolved⟩⟩
  · rintro ⟨within, named, legal⟩
    obtain ⟨s, resolved⟩ := Criterion.resolveLegal.mpr legal
    exact ⟨_, _, Reporter.newSteps.mpr ⟨within, named, s, resolved, rfl⟩⟩
  · intro r log made
    obtain ⟨_, _, s, resolved, same⟩ := Reporter.newSteps.mp made
    cases same
    exact (Criterion.resolveOk resolved).2
  · change (_ ↔ ¬ config.InLimits) ∧ (_ ↔ config.InLimits)
    obtain ⟨category, broken⟩ | ⟨category, within⟩ := Reporter.refusedCategory refused
    · simp [category, broken]
    · simp [category, within]

end EvalReport
