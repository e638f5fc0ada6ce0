import EvalReport.Proofs.CandidateOrder
import EvalReport.Proofs.PairedRuns
import EvalReport.Proofs.Runs

/-! Tied labels. Of two labels with numerically equal scores the lower one is listed first, unless
its score is the negative zero and the other one's the positive: the order of the candidates tells
the zeros apart. Putting positive zeros for negative ones changes no candidates, and no report of a
top-k pass, exactly where every positive zero stands before every negative one. -/
namespace EvalReport

open Score (negativeZero positiveZero)

def ZerosCleared (row cleared : List Score) : Prop :=
  List.Forall₂ (fun s t => t = s ∨ s = negativeZero ∧ t = positiveZero) row cleared

def ZerosInOrder (row : List Score) : Prop :=
  ∀ a b : Nat, row[a]? = some negativeZero → row[b]? = some positiveZero → b < a

instance (row : List Score) : Decidable (ZerosInOrder row) :=
  decidable_of_iff (∀ a < row.length, ∀ b < row.length,
      row[a]? = some negativeZero → row[b]? = some positiveZero → b < a)
    ⟨fun each a b atA atB => each a (List.getElem?_eq_some_iff.mp atA).1 b
      (List.getElem?_eq_some_iff.mp atB).1 atA atB, fun inOrder a _ b _ => inOrder a b⟩

namespace Ranking

/-! ### Ties -/

theorem listedFirst {row : List Score} {k a b : Nat} (ahead : AheadBy Score.place row a b)
    (listed : b ∈ topK k row) : [a, b].Sublist (topK k row) := by
  have selected := topKSelected k row
  obtain ⟨below, _⟩ := aheadBelow ahead
  have first : a ∈ topK k row := by
    by_contra absent
    exact aheadAsymm a b ahead (selected.rest b listed a below absent)
  have apart : a ≠ b := by
    rintro rfl
    exact aheadAsymm a a ahead ahead
  obtain ⟨front, back, split⟩ := List.append_of_mem listed
  have ordered := selected.ordered
  rw [split] at first ordered ⊢
  rcases List.mem_append.mp first with before | after
  · exact (List.singleton_sublist.mpr before).append ((List.nil_sublist back).cons_cons b)
  · have behind := (List.mem_cons.mp after).resolve_left apart
    have reversed := (List.pairwise_cons.mp (List.pairwise_append.mp ordered).2.1).1 a behind
    exact absurd reversed (aheadAsymm a b ahead)

theorem tiedZeros {s t : Score} (tied : s.same t = true) :
    s = t ∨ s = positiveZero ∧ t = negativeZero ∨ s = negativeZero ∧ t = positiveZero := by
  have level : s.level = t.level := sameLevel tied
  rcases lt_trichotomy s.place t.place with less | same | more
  · exact .inr (.inr (Score.zerosOfLevel level less))
  · exact .inl (Score.placeInjective same)
  · exact .inr (.inl (Score.zerosOfLevel level.symm more).symm)

theorem tiedListed (k : Nat) {row : List Score} {a b : Nat} {s t : Score} (lower : a < b)
    (atA : row[a]? = some s) (atB : row[b]? = some t) (tied : s.same t = true) :
    if s = negativeZero ∧ t = positiveZero then a ∈ topK k row → [b, a].Sublist (topK k row)
    else b ∈ topK k row → [a, b].Sublist (topK k row) := by
  split
  · rename_i zeros
    obtain ⟨rfl, rfl⟩ := zeros
    exact listedFirst ⟨_, _, atB, atA, .inl (by decide)⟩
  · rename_i others
    obtain rfl | ⟨rfl, rfl⟩ | zeros := tiedZeros tied
    · exact listedFirst ⟨_, _, atA, atB, .inr ⟨rfl, lower⟩⟩
    · exact listedFirst ⟨_, _, atA, atB, .inl (by decide)⟩
    · exact absurd zeros others

/-! ### Rows without negative zeros -/

section Cleared

variable {row cleared : List Score} {a b : Nat}

theorem clearedAt (replaced : ZerosCleared row cleared) {s : Score} (here : row[a]? = some s) :
    ∃ t, cleared[a]? = some t ∧ (t = s ∨ s = negativeZero ∧ t = positiveZero) := by
  obtain ⟨inside, rfl⟩ := List.getElem?_eq_some_iff.mp here
  have bound : a < cleared.length := replaced.length_eq ▸ inside
  exact ⟨cleared[a], List.getElem?_eq_getElem bound, replaced.get inside bound⟩

theorem clearedFrom (replaced : ZerosCleared row cleared) {t : Score}
    (here : cleared[a]? = some t) :
    ∃ s, row[a]? = some s ∧ (t = s ∨ s = negativeZero ∧ t = positiveZero) := by
  obtain ⟨inside, rfl⟩ := List.getElem?_eq_some_iff.mp here
  have bound : a < row.length := replaced.length_eq ▸ inside
  exact ⟨row[a], List.getElem?_eq_getElem bound, replaced.get bound inside⟩

theorem aheadNumbers (inOrder : ZerosInOrder row) (ahead : AheadBy Score.place row a b) :
    AheadBy Score.level row a b := by
  obtain ⟨s, t, atA, atB, better | ⟨tie, lower⟩⟩ := ahead
  · refine ⟨s, t, atA, atB, ?_⟩
    rcases (Score.levelOfPlace better.le).lt_or_eq with larger | same
    · exact .inl larger
    · obtain ⟨rfl, rfl⟩ := Score.zerosOfLevel same better
      exact .inr ⟨same, inOrder b a atB atA⟩
  · obtain rfl := Score.placeInjective tie
    exact ⟨t, t, atA, atB, .inr ⟨rfl, lower⟩⟩

theorem aheadCleared (replaced : ZerosCleared row cleared) (ahead : AheadBy Score.level row a b) :
    AheadBy Score.level cleared a b := by
  have kept : ∀ {s t : Score}, t = s ∨ s = negativeZero ∧ t = positiveZero → t.level = s.level := by
    rintro s t (rfl | ⟨rfl, rfl⟩)
    · rfl
    · decide
  obtain ⟨s, t, atA, atB, better⟩ := ahead
  obtain ⟨s', atA', fromS⟩ := clearedAt replaced atA
  obtain ⟨t', atB', fromT⟩ := clearedAt replaced atB
  exact ⟨s', t', atA', atB', by rwa [kept fromS, kept fromT]⟩

theorem clearedKept (replaced : ZerosCleared row cleared) (first : ZerosInOrder row)
    (second : ZerosInOrder cleared) (k : Nat) : topK k row = topK k cleared := by
  have before : Selected (AheadBy Score.level cleared) cleared.length k (topK k row) :=
    replaced.length_eq ▸ (topKSelected k row).imp fun _ _ ahead =>
      aheadCleared replaced (aheadNumbers first ahead)
  have after : Selected (AheadBy Score.level cleared) cleared.length k (topK k cleared) :=
    (topKSelected k cleared).imp fun _ _ => aheadNumbers second
  exact before.unique aheadAsymm after

theorem aheadSame (same : ∀ k, topK k row = topK k cleared) (ahead : AheadBy Score.place row a b) :
    AheadBy Score.place cleared a b := by
  obtain ⟨_, below⟩ := aheadBelow ahead
  have pair := listedFirst ahead (topKAll (le_refl row.length) below)
  rw [same] at pair
  exact List.pairwise_iff_forall_sublist.mp (topKSelected row.length cleared).ordered pair

theorem clearedSomewhere (replaced : ZerosCleared row cleared) (differ : row ≠ cleared) :
    ∃ i : Nat, row[i]? = some negativeZero ∧ cleared[i]? = some positiveZero := by
  induction replaced with
  | nil => contradiction
  | @cons s t row cleared here _ ih =>
    rcases here with rfl | ⟨rfl, rfl⟩
    · obtain ⟨i, old, new⟩ := ih fun same => differ (congrArg _ same)
      exact ⟨i + 1, old, new⟩
    · exact ⟨0, rfl, rfl⟩

/- A zero that is replaced leaves the negative zeros and joins the positive ones, so it has to stand
behind the ones and before the others. -/
theorem clearedInOrder (replaced : ZerosCleared row cleared)
    (same : ∀ k, topK k row = topK k cleared) (differ : row ≠ cleared) :
    ZerosInOrder row ∧ ZerosInOrder cleared := by
  have turned : ∀ {x y : Nat}, AheadBy Score.place row x y → ¬ AheadBy Score.place cleared y x :=
    fun ahead => aheadAsymm _ _ (aheadSame same ahead)
  have positive : ∀ {b : Nat}, row[b]? = some positiveZero → cleared[b]? = some positiveZero := by
    intro b atB
    obtain ⟨t, there, rfl | ⟨wrong, _⟩⟩ := clearedAt replaced atB
    · exact there
    · exact absurd wrong (by decide)
  have negative : ∀ {a : Nat}, cleared[a]? = some negativeZero → row[a]? = some negativeZero := by
    intro a atA
    obtain ⟨s, there, rfl | ⟨_, wrong⟩⟩ := clearedFrom replaced atA
    · exact there
    · exact absurd wrong (by decide)
  have behind : ∀ {b i : Nat}, row[b]? = some positiveZero → row[i]? = some negativeZero →
      cleared[i]? = some positiveZero → b < i := by
    intro b i atB old new
    by_contra above
    rcases (Nat.not_lt.mp above).lt_or_eq with lower | rfl
    · exact turned ⟨_, _, atB, old, .inl (by decide)⟩
        ⟨_, _, new, positive atB, .inr ⟨rfl, lower⟩⟩
    · exact absurd (old.symm.trans atB) (by decide)
  have before : ∀ {i a : Nat}, row[i]? = some negativeZero → cleared[i]? = some positiveZero →
      cleared[a]? = some negativeZero → i < a := by
    intro i a old new atA
    by_contra above
    rcases (Nat.not_lt.mp above).lt_or_eq with lower | rfl
    · exact turned ⟨_, _, negative atA, old, .inr ⟨rfl, lower⟩⟩
        ⟨_, _, new, atA, .inl (by decide)⟩
    · exact absurd (new.symm.trans atA) (by decide)
  obtain ⟨i, old, new⟩ := clearedSomewhere replaced differ
  constructor
  · intro a b atA atB
    obtain ⟨t, there, rfl | ⟨_, rfl⟩⟩ := clearedAt replaced atA
    · exact (behind atB old new).trans (before old new there)
    · exact behind atB atA there
  · intro a b atA atB
    obtain ⟨s, there, rfl | ⟨rfl, _⟩⟩ := clearedFrom replaced atB
    · exact (behind there old new).trans (before old new atA)
    · exact before there atB atA

theorem clearedExact (replaced : ZerosCleared row cleared) :
    (∀ k, topK k row = topK k cleared) ↔
      row = cleared ∨ ZerosInOrder row ∧ ZerosInOrder cleared := by
  constructor
  · intro same
    by_cases differ : row = cleared
    · exact .inl differ
    · exact .inr (clearedInOrder replaced same differ)
  · rintro (rfl | ⟨first, second⟩) k
    · rfl
    · exact clearedKept replaced first second k

end Cleared

end Ranking

/-! ### Passes without negative zeros -/

inductive Rescored (R : List Score → List Score → Prop) : Arrival → Arrival → Prop where
  | withheld {a : Arrival} (absent : a.batch.scores = none) : Rescored R a a
  | given {a : Arrival} {m n : Matrix Score} (present : a.batch.scores = some m)
      (width : n.width = m.width) (rows : List.Forall₂ R m.rows n.rows) :
      Rescored R a { a with batch := { a.batch with scores := some n } }

theorem Rescored.imp {R S : List Score → List Score → Prop} {a b : Arrival}
    (weaker : ∀ {row other}, R row other → S row other) (rescored : Rescored R a b) :
    Rescored S a b := by
  cases rescored with
  | withheld absent => exact .withheld absent
  | given present width rows => exact .given present width (rows.imp fun _ _ => weaker)

def SameCandidates (k : Nat) (row other : List Score) : Prop :=
  Ranking.topK k row = Ranking.topK k other

def Decoded.unscored {t : Task} (d : Decoded t) : Decoded t := { d with scores := [] }

theorem mapAlike {α β γ : Type} {x : Except Fault α} {y : Except Fault β} {f : α → γ} {g : β → γ}
    (same : x.map f = y.map g) : (∃ fault, x = .error fault ∧ y = .error fault) ∨
      ∃ a b, x = .ok a ∧ y = .ok b ∧ f a = g b := by
  cases x with
  | error fault =>
    cases y with
    | error other => exact .inl ⟨fault, rfl, congrArg _ (Except.error.inj same).symm⟩
    | ok b => contradiction
  | ok a =>
    cases y with
    | error other => contradiction
    | ok b => exact .inr ⟨a, b, rfl, rfl, Except.ok.inj same⟩

theorem collectOkAlike {α β γ : Type} {f : α → Except Fault γ} {g : β → Except Fault γ}
    {xs : List α} {ys : List β} (each : List.Forall₂ (fun x y => f x = g y) xs ys) :
    collectOk f xs = collectOk g ys := by
  induction each with
  | nil => rfl
  | cons here _ ih => rw [collectOk, collectOk, here, ih]

theorem topKRowsAlike {k : Nat} (catalogue : Nat) (t : Tensor Int) {m n : Matrix Score}
    (width : n.width = m.width) (rows : List.Forall₂ (SameCandidates k) m.rows n.rows) :
    topKRows k catalogue t (some m) = topKRows k catalogue t (some n) := by
  have pairs : ∀ raws : List Int, List.Forall₂ (fun x y => x.1 = y.1 ∧ SameCandidates k x.2 y.2)
      (raws.zip m.rows) (raws.zip n.rows) := by
    generalize m.rows = ms at rows
    generalize n.rows = ns at rows
    intro raws
    induction rows generalizing raws with
    | nil => simp
    | cons here _ ih =>
      cases raws with
      | nil => simp
      | cons raw raws => exact .cons ⟨rfl, here⟩ (ih raws)
  simp only [topKRows, rows.length_eq, width]
  cases vectorOf .predictions t with
  | error fault => rfl
  | ok raws =>
    simp only [bind, Except.bind]
    split
    · rfl
    · split
      · rfl
      · refine collectOkAlike ((pairs raws).imp fun x y same => ?_)
        simp only [same.1, show Ranking.topK k x.2 = Ranking.topK k y.2 from same.2]

section Rescored

variable {k : Nat} (catalogue : Nat) (mode : Bool) {a b : Arrival}

theorem decodeRescored (rescored : Rescored (SameCandidates k) a b) :
    (PassRules.decode ⟨.topK k, catalogue, mode⟩ a.batch).map Decoded.unscored =
      (PassRules.decode ⟨.topK k, catalogue, mode⟩ b.batch).map Decoded.unscored := by
  cases rescored with
  | withheld => rfl
  | @given m n present width rows =>
    have predicted := topKRowsAlike catalogue a.batch.predictions width rows
    have kept : ∀ count, (PassRules.keptScores ⟨.topK k, catalogue, mode⟩ count a.batch).map
          (fun _ => ()) =
        (PassRules.keptScores ⟨.topK k, catalogue, mode⟩ count
          { a.batch with scores := some n }).map fun _ => () := by
      intro count
      simp only [PassRules.keptScores, present, rows.length_eq, width]
      split
      · rfl
      · split
        · rfl
        · split <;> rfl
    simp only [PassRules.decode, Kind.predictedRows, present, predicted]
    cases topKRows k catalogue a.batch.predictions (some n) with
    | error fault => rfl
    | ok rows =>
      cases Task.topK.expectedRows catalogue a.batch.targets with
      | error fault => rfl
      | ok expected =>
        simp only [bind, Except.bind]
        split
        · rfl
        · obtain ⟨fault, first, second⟩ | ⟨_, _, first, second, _⟩ := mapAlike (kept rows.length)
          · rw [first, second]
          · rw [first, second]
            rfl

theorem receiveRescored {p q : Pass .topK} (paired : p.Pairs Eq Eq q)
    (rescored : Rescored (SameCandidates k) a b) :
    (PassRules.receive ⟨.topK k, catalogue, mode⟩ p a).result =
        (PassRules.receive ⟨.topK k, catalogue, mode⟩ q b).result ∧
      (PassRules.receive ⟨.topK k, catalogue, mode⟩ p a).pass.Pairs Eq Eq
        (PassRules.receive ⟨.topK k, catalogue, mode⟩ q b).pass := by
  let rules : PassRules := ⟨.topK k, catalogue, mode⟩
  have loss : a.batch.loss = b.batch.loss := by cases rescored <;> rfl
  have context : a.context = b.context := by cases rescored <;> rfl
  obtain ⟨fault, first, second⟩ | ⟨d, e, first, second, same⟩ :=
    mapAlike (decodeRescored catalogue mode rescored)
  · simp only [PassRules.receive, PassRules.ingest, first, second]
    exact ⟨trivial, paired⟩
  · have rows : d.Pairs Eq Eq e := by
      obtain ⟨predicted, expected, _⟩ := Decoded.mk.inj same
      exact ⟨List.forall₂_eq_eq_eq ▸ predicted, List.forall₂_eq_eq_eq ▸ expected⟩
    have along : Alongside rules rules Eq Eq a b :=
      ⟨fun d' again => ⟨e, second, Except.ok.inj (first.symm.trans again) ▸ rows⟩, loss, context⟩
    have taken : (rules.receive p a).result = .ok () := (rules.receiveOk p a).mpr ⟨d, first⟩
    obtain ⟨takenToo, next⟩ := receivePaired paired along taken
    exact ⟨taken.trans takenToo.symm, next⟩

end Rescored

theorem computeUnranked {t : Task} (unranked : t.isRanked = false) {α : Type} [Arithmetic α]
    (labels : List String) (xs : List (Example t)) (loss : Option α) (options : ReportOptions α) :
    Report.compute labels (xs.map Example.withhold) loss options =
      Report.compute labels xs loss options := by
  simp only [Report.compute, Report.strayLabel, Report.referencedWithheld, Report.hardOnlyWithheld,
    unranked, Bool.false_and, Bool.false_eq_true, if_false]

theorem metricsRescored {k : Nat} {config : Config} {labels : List String} {selection : Selection}
    {channels : List Channel} {p q : Pass .topK} (paired : p.Pairs Eq Eq q)
    (aligned : Aligned ⟨.topK k, labels.length, config.memoryEfficient⟩ p)
    (alignedToo : Aligned ⟨.topK k, labels.length, config.memoryEfficient⟩ q) :
    Reporter.metrics ⟨config, labels, selection, .topK k, p, channels⟩ =
      Reporter.metrics ⟨config, labels, selection, .topK k, q, channels⟩ := by
  have loss : p.loss = q.loss := congrArg Arithmetic.mean? paired.losses
  have finished : p.finish config.memoryEfficient = _ := aligned.finishExact
  have finishedToo : q.finish config.memoryEfficient = _ := alignedToo.finishExact
  rw [Reporter.metrics, Reporter.metrics, finished, finishedToo, faultPaired paired]
  cases q.fault? with
  | some fault => rfl
  | none =>
    have rows : (p.assembled config.memoryEfficient).map Example.withhold =
        (q.assembled config.memoryEfficient).map Example.withhold := by
      refine (forallMapped.mp (assembledPaired ?_ paired _ _)).symm
      rintro row row' expected expected' scores scores' rfl rfl
      rw [assembleWithheld, assembleWithheld]
    change Report.compute labels (p.assembled config.memoryEfficient) p.loss _ =
      Report.compute labels (q.assembled config.memoryEfficient) q.loss _
    rw [loss, ← computeUnranked rfl, rows, computeUnranked rfl]
    rfl

theorem runRescored {k : Nat} {labels : List String} {config : Config} {r : Reporter}
    {log : List LogLine} (made : Reporter.new (.topK k) labels config = .ok (r, log))
    {xs ys : List Arrival} (rescored : List.Forall₂ (Rescored (SameCandidates k)) xs ys) :
    r.outcomes xs = r.outcomes ys ∧ (r.feed xs).pass.predicted = (r.feed ys).pass.predicted ∧
      (r.feed xs).metrics = (r.feed ys).metrics := by
  have aligned := Reporter.fedAligned made xs
  have alignedToo := Reporter.fedAligned made ys
  obtain ⟨selection, rfl⟩ := Reporter.newFields made
  have fresh : Pass.Pairs (t := .topK) (u := .topK) Eq Eq {} {} := ⟨.nil, .nil, rfl, rfl⟩
  obtain ⟨outcomes, paired⟩ := PassRules.runTogether
    ⟨.topK k, labels.length, config.memoryEfficient⟩
    ⟨.topK k, labels.length, config.memoryEfficient⟩ (receiveRescored _ _) rescored fresh
  have predicted := paired.predicted
  rw [List.forall₂_eq_eq_eq] at predicted
  exact ⟨outcomes, predicted, metricsRescored paired aligned alignedToo⟩

def ZerosTurned (row cleared : List Score) : Prop :=
  row = cleared ∨ ZerosCleared row cleared ∧ ZerosInOrder row ∧ ZerosInOrder cleared

theorem turnedCandidates {row cleared : List Score} (turned : ZerosTurned row cleared) (k : Nat) :
    SameCandidates k row cleared := by
  rcases turned with rfl | ⟨replaced, first, second⟩
  · rfl
  · exact Ranking.clearedKept replaced first second k

theorem tiesGoLower (k : Nat) (row : List Score) :
    (∀ (a b : Nat) (s t : Score), a < b → row[a]? = some s → row[b]? = some t → s.same t = true →
      if s = negativeZero ∧ t = positiveZero
        then a ∈ Ranking.topK k row → [b, a].Sublist (Ranking.topK k row)
        else b ∈ Ranking.topK k row → [a, b].Sublist (Ranking.topK k row)) ∧
    (∀ cleared : List Score, ZerosCleared row cleared →
      ((∀ n, Ranking.topK n row = Ranking.topK n cleared) ↔
        row = cleared ∨ ZerosInOrder row ∧ ZerosInOrder cleared)) ∧
    ∀ (labels : List String) (config : Config) (r : Reporter) (log : List LogLine),
      Reporter.new (.topK k) labels config = .ok (r, log) →
      ∀ xs ys : List Arrival, List.Forall₂ (Rescored ZerosTurned) xs ys →
        r.outcomes xs = r.outcomes ys ∧ (r.feed xs).pass.predicted = (r.feed ys).pass.predicted ∧
          (r.feed xs).metrics = (r.feed ys).metrics := by
  refine ⟨fun a b s t lower atA atB tied => Ranking.tiedListed k lower atA atB tied,
    fun cleared replaced => Ranking.clearedExact replaced, ?_⟩
  intro labels config r log made xs ys turned
  refine runRescored made (turned.imp fun a b one => ?_)
  exact one.imp fun here => turnedCandidates here k

def scoredTwice (row : List Score) (even : ∀ line ∈ [row, row], line.length = 2) : Arrival where
  batch := ⟨0, labelPair 0 0, labelPair 0 1, some ⟨2, [row, row], even⟩, none⟩
  input := .ready []
  context := ∅

theorem zerosCleared : ZerosCleared [⟨0⟩, ⟨0x80000000⟩] [⟨0⟩, ⟨0⟩] :=
  .cons (.inl rfl) (.cons (.inr ⟨rfl, rfl⟩) .nil)

theorem zerosInOrder :
    ZerosInOrder [⟨0⟩, ⟨0x80000000⟩] ∧ ZerosInOrder [⟨0⟩, ⟨0⟩] := by
  decide

theorem zerosTurnedAlike :
    [0, 1].Sublist (Ranking.topK 2 [⟨0⟩, ⟨0x80000000⟩]) ∧
    Ranking.topK 1 [⟨0⟩, ⟨0x80000000⟩] = Ranking.topK 1 [⟨0⟩, ⟨0⟩] ∧
    ((Reporter.yesNo (.topK 1)).feed [scoredTwice [⟨0⟩, ⟨0x80000000⟩] (by decide)]).metrics =
      ((Reporter.yesNo (.topK 1)).feed [scoredTwice [⟨0⟩, ⟨0⟩] (by decide)]).metrics := by
  obtain ⟨ties, _, _⟩ := tiesGoLower 2 [⟨0⟩, ⟨0x80000000⟩]
  obtain ⟨_, rows, reports⟩ := tiesGoLower 1 [⟨0⟩, ⟨0x80000000⟩]
  refine ⟨?_, ?_, ?_⟩
  · have listed : 1 ∈ Ranking.topK 2 [⟨0⟩, ⟨0x80000000⟩] :=
      Ranking.topKAll (by decide) (by decide)
    exact ties 0 1 ⟨0⟩ ⟨0x80000000⟩ Nat.zero_lt_one rfl rfl (by decide) listed
  · exact (rows _ zerosCleared).mpr (.inr zerosInOrder) 1
  · have rescored : Rescored ZerosTurned (scoredTwice [⟨0⟩, ⟨0x80000000⟩] (by decide))
        (scoredTwice [⟨0⟩, ⟨0⟩] (by decide)) :=
      .given (n := ⟨2, [[⟨0⟩, ⟨0⟩], [⟨0⟩, ⟨0⟩]], by decide⟩) rfl rfl
        (.cons (.inr ⟨zerosCleared, zerosInOrder⟩) (.cons (.inr ⟨zerosCleared, zerosInOrder⟩) .nil))
    exact (reports _ _ _ _ (Reporter.yesNoMade (.topK 1)) _ _ (.cons rescored .nil)).2.2

/- The tie goes to the higher label, since its zero is the positive one; with positive zeros alone
it goes to the lower. -/
theorem positiveZeroPreferred :
    Score.same ⟨0x80000000⟩ ⟨0⟩ = true ∧ Ranking.topK 1 [⟨0x80000000⟩, ⟨0⟩] = [1] ∧
    Ranking.topK 1 [⟨0⟩, ⟨0⟩] = [0] := by
  refine ⟨by decide, Ranking.bestFirst.mpr ?_, Ranking.bestFirst.mpr ?_⟩
  · decide
  · decide

end EvalReport
