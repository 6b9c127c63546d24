import LanguageGuru.Backend.PlainPlatform
import LanguageGuru.Backend.Schemas
import LanguageGuru.Frontend.StarResponse
import Mathlib.Tactic.Linarith

/-!
# The range of STAR scores

A section of an answer scores at most its weight, and the four weights of a rubric sum to 100, so
that the server accepts the score. The exception is a section of weight zero: `weights.x || 25`
takes the zero for a missing weight, and the section scores up to 25 points when the answer speaks
of it.

## Main definitions

* `StarSection`: the four sections, as indices
* `rubricWeights`, `sectionHits`, `sectionMatched`: the intermediate values of an evaluation
* `InRange`: what the scores of an answer should meet

## Main results

* `scaledScore_pos`, `scaledScore_le`, `scaledScore_of_hits`, `scaledScore_mono`: the points of a
  section
* `star_scores_in_range_iff`: when the scores meet `InRange`
-/

namespace LanguageGuru

inductive StarSection where
  | situation
  | task
  | action
  | result
  deriving DecidableEq, Repr

def StarSection.name : StarSection → String
  | .situation => "situation"
  | .task => "task"
  | .action => "action"
  | .result => "result"

/-- The value for a section. -/
def Sections.of {α : Type} (s : Sections α) : StarSection → α
  | .situation => s.situation
  | .task => s.task
  | .action => s.action
  | .result => s.result

def Weights.of (w : Weights) : StarSection → ℚ
  | .situation => w.situation
  | .task => w.task
  | .action => w.action
  | .result => w.result

def Weights.sum (w : Weights) : ℚ := w.situation + w.task + w.action + w.result

theorem StarSection.name_injective {x y : StarSection} (h : x.name = y.name) : x = y := by
  cases x <;> cases y <;> first | rfl | exact absurd h (by decide)

/-- The names of the entries that are not set. -/
theorem mem_unmatched {checks : Sections Bool} {name : String} :
    name ∈ (checks.entries.filter fun entry => !entry.2).map Prod.fst ↔
      ∃ x : StarSection, x.name = name ∧ checks.of x = false := by
  have hentries : checks.entries =
      [.situation, .task, .action, .result].map
        fun x : StarSection => (x.name, checks.of x) := rfl
  have hall : ∀ x : StarSection, x ∈ [StarSection.situation, .task, .action, .result] := by
    intro x
    cases x <;> simp
  rw [hentries, List.filter_map, List.map_map]
  constructor
  · intro h
    obtain ⟨x, hx, hname⟩ := List.mem_map.mp h
    exact ⟨x, hname, by simpa using (List.mem_filter.mp hx).2⟩
  · rintro ⟨x, hname, hx⟩
    exact List.mem_map.mpr ⟨x, List.mem_filter.mpr ⟨hall x, by simpa using hx⟩, hname⟩

/-! ## The points of a section -/

section Points

variable {weight : ℚ}

theorem weightOr25_of_pos (h : 0 < weight) : weightOr25 weight = weight := if_neg h.ne'

theorem weightOr25_nonneg (h : 0 ≤ weight) : 0 ≤ weightOr25 weight := by
  unfold weightOr25
  split
  · norm_num
  · exact h

theorem scaledScore_unmatched (weight : ℚ) (hits : ℕ) : scaledScore false weight hits = 0 := rfl

theorem scaledScore_nonneg (isMatched : Bool) (h : 0 ≤ weight) (hits : ℕ) :
    0 ≤ scaledScore isMatched weight hits := by
  cases isMatched with
  | false => exact le_refl 0
  | true =>
    apply le_min _ h
    have hround : (0 : ℤ) ≤ mathRound (weight * (85 / 100 + (min hits 2 : ℕ) * (15 / 100))) := by
      apply Int.floor_nonneg.mpr
      positivity
    exact_mod_cast hround

/-- A section scores at most its weight. -/
theorem scaledScore_le (isMatched : Bool) (h : 0 ≤ weight) (hits : ℕ) :
    scaledScore isMatched weight hits ≤ weight := by
  cases isMatched with
  | false => exact h
  | true => exact min_le_right _ _

/-- A section that is matched and has a weight of one at least scores. -/
theorem scaledScore_pos (hweight : 1 ≤ weight) (hits : ℕ) : 0 < scaledScore true weight hits := by
  -- the weight is scaled to 0.85 at least, which rounds to one
  have hboost : (0 : ℚ) ≤ (min hits 2 : ℕ) * (15 / 100) := by positivity
  have hscaled : (1 : ℚ) ≤ weight * (85 / 100 + (min hits 2 : ℕ) * (15 / 100)) + 1 / 2 := by
    have := mul_le_mul hweight (le_add_of_nonneg_right hboost) (by norm_num : (0 : ℚ) ≤ 85 / 100)
      (by linarith)
    linarith
  have hround : (1 : ℤ) ≤ mathRound (weight * (85 / 100 + (min hits 2 : ℕ) * (15 / 100))) :=
    Int.le_floor.mpr (by exact_mod_cast hscaled)
  refine lt_min ?_ (by linarith)
  exact_mod_cast Int.lt_of_lt_of_le Int.one_pos hround

/-- A section with a keyword hit scores its full weight, when this is a whole number. -/
theorem scaledScore_of_hits (weight : ℕ) {hits : ℕ} (hhits : 0 < hits) :
    scaledScore true weight hits = weight := by
  -- one hit is enough for the factor 0.85 + 0.15, and the score is cut at the weight
  have hone : (1 : ℚ) ≤ (min hits 2 : ℕ) := by
    have : 1 ≤ min hits 2 := by omega
    exact_mod_cast this
  have hscaled : (weight : ℚ) ≤ weight * (85 / 100 + (min hits 2 : ℕ) * (15 / 100)) + 1 / 2 := by
    have := mul_le_mul_of_nonneg_left
      (by linarith : (1 : ℚ) ≤ 85 / 100 + (min hits 2 : ℕ) * (15 / 100)) (Nat.cast_nonneg weight)
    linarith
  have hround : (weight : ℤ) ≤ mathRound (weight * (85 / 100 + (min hits 2 : ℕ) * (15 / 100))) :=
    Int.le_floor.mpr (by exact_mod_cast hscaled)
  refine min_eq_right ?_
  exact_mod_cast hround

/-- More keyword hits do not score less. -/
theorem scaledScore_mono {isMatched isMatched' : Bool}
    (hmatched : isMatched = true → isMatched' = true) (hweight : 0 ≤ weight) {hits hits' : ℕ}
    (hhits : hits ≤ hits') :
    scaledScore isMatched weight hits ≤ scaledScore isMatched' weight hits' := by
  cases isMatched with
  | false => exact scaledScore_nonneg isMatched' hweight hits'
  | true =>
    rw [hmatched rfl]
    have hboost : ((min hits 2 : ℕ) : ℚ) ≤ (min hits' 2 : ℕ) := by
      have : min hits 2 ≤ min hits' 2 := by omega
      exact_mod_cast this
    have hproduct : weight * (85 / 100 + (min hits 2 : ℕ) * (15 / 100)) ≤
        weight * (85 / 100 + (min hits' 2 : ℕ) * (15 / 100)) := by
      apply mul_le_mul_of_nonneg_left _ hweight
      linarith
    have hround : mathRound (weight * (85 / 100 + (min hits 2 : ℕ) * (15 / 100))) ≤
        mathRound (weight * (85 / 100 + (min hits' 2 : ℕ) * (15 / 100))) := by
      apply Int.floor_le_floor
      linarith
    apply min_le_min_right
    exact_mod_cast hround

end Points

/-! ## An evaluation -/

section Evaluation

variable (toLowerCase : String → String) (text : String) (rubric : Option Rubric)

/-- The weights of an evaluation: those of the rubric, or the default. -/
def rubricWeights : Weights := (rubric.map Rubric.weights).getD defaultWeights

/-- The keyword hits of an answer: those of the rubric's keywords, or none. -/
def sectionHits : Sections ℕ :=
  let keywords := (rubric.map Rubric.keywords).getD ⟨[], [], [], []⟩
  { situation := countKeywordHits toLowerCase (toLowerCase text) keywords.situation
    task := countKeywordHits toLowerCase (toLowerCase text) keywords.task
    action := countKeywordHits toLowerCase (toLowerCase text) keywords.action
    result := countKeywordHits toLowerCase (toLowerCase text) keywords.result }

/-- The answer speaks of a section: it has one of its phrases or a keyword hit. -/
def sectionMatched (x : StarSection) : Bool :=
  (starChecks (toLowerCase text) (sectionHits toLowerCase text rubric)).of x

/-- The body of the request with which a score is submitted. -/
def submission (lessonId : String) (score : ℚ) : Json :=
  .obj [("lessonId", .str lessonId), ("completed", .bool true), ("score", .num score)]

/-- What the scores of an answer should meet: a section scores at most its weight, the sum is at
most 100 and accepted by the server, and a section that has weight scores 0 when it is missing, and
all its weight when it has a keyword hit. -/
structure InRange : Prop where
  section_le : ∀ x, 0 ≤ (evaluateStarResponse toLowerCase text rubric).breakdown.of x ∧
    (evaluateStarResponse toLowerCase text rubric).breakdown.of x ≤ (rubricWeights rubric).of x
  score_eq : (evaluateStarResponse toLowerCase text rubric).score =
    (evaluateStarResponse toLowerCase text rubric).breakdown.of .situation +
      (evaluateStarResponse toLowerCase text rubric).breakdown.of .task +
      (evaluateStarResponse toLowerCase text rubric).breakdown.of .action +
      (evaluateStarResponse toLowerCase text rubric).breakdown.of .result
  score_le : 0 ≤ (evaluateStarResponse toLowerCase text rubric).score ∧
    (evaluateStarResponse toLowerCase text rubric).score ≤ 100
  accepted : ∀ P lessonId, lessonId ≠ "" →
    progressSchema P (submission lessonId (evaluateStarResponse toLowerCase text rubric).score) =
      .ok ⟨lessonId, true, (evaluateStarResponse toLowerCase text rubric).score⟩
  missing : ∀ x, 0 < (rubricWeights rubric).of x →
    ((evaluateStarResponse toLowerCase text rubric).breakdown.of x = 0 ↔
      x.name ∈ (evaluateStarResponse toLowerCase text rubric).missingSections)
  full : ∀ x, 0 < (rubricWeights rubric).of x →
    0 < (evaluateStarResponse toLowerCase text rubric).keywordHits.of x →
    (evaluateStarResponse toLowerCase text rubric).breakdown.of x = (rubricWeights rubric).of x

variable {toLowerCase text rubric}

theorem keywordHits_eq :
    (evaluateStarResponse toLowerCase text rubric).keywordHits =
      sectionHits toLowerCase text rubric := rfl

/-- The points of a section. -/
theorem breakdown_of (x : StarSection) :
    (evaluateStarResponse toLowerCase text rubric).breakdown.of x =
      scaledScore (sectionMatched toLowerCase text rubric x)
        (weightOr25 ((rubricWeights rubric).of x))
        ((sectionHits toLowerCase text rubric).of x) := by
  cases x <;> rfl

/-- A section with a keyword hit is matched. -/
theorem sectionMatched_of_hits {x : StarSection}
    (h : 0 < (sectionHits toLowerCase text rubric).of x) :
    sectionMatched toLowerCase text rubric x = true := by
  unfold sectionMatched
  cases x
  all_goals
    simp only [Sections.of, starChecks] at h ⊢
    simp [h]

/-- The missing sections are those that are not matched. -/
theorem mem_missingSections {name : String} :
    name ∈ (evaluateStarResponse toLowerCase text rubric).missingSections ↔
      ∃ x : StarSection, x.name = name ∧ sectionMatched toLowerCase text rubric x = false :=
  mem_unmatched

theorem name_mem_missingSections {x : StarSection} :
    x.name ∈ (evaluateStarResponse toLowerCase text rubric).missingSections ↔
      sectionMatched toLowerCase text rubric x = false := by
  rw [mem_missingSections]
  constructor
  · rintro ⟨y, hname, hy⟩
    rw [← StarSection.name_injective hname]
    exact hy
  · exact fun h => ⟨x, rfl, h⟩

/-- A section of weight zero scores when it is matched. -/
theorem breakdown_of_weight_zero {x : StarSection} (hzero : (rubricWeights rubric).of x = 0)
    (hmatched : sectionMatched toLowerCase text rubric x = true) :
    0 < (evaluateStarResponse toLowerCase text rubric).breakdown.of x := by
  rw [breakdown_of, hmatched, hzero, weightOr25, if_pos rfl]
  exact scaledScore_pos (by norm_num) _

/-- A score from 0 to 100 passes the schema. -/
theorem progressSchema_submission (P : Platform) {lessonId : String} (hid : lessonId ≠ "") {q : ℚ}
    (hlow : 0 ≤ q) (hhigh : q ≤ 100) :
    progressSchema P (submission lessonId q) = .ok ⟨lessonId, true, q⟩ := by
  apply progressSchema_eq_ok.mpr
  refine ⟨_, rfl, ?_, rfl, ?_, ?_⟩
  · apply StringKey.check_eq_ok.mpr
    simp [StringKey.convert, lessonIdKey, hid]
  · show scoreRules "score" q = .ok q
    rw [scoreRules, if_neg (by rintro (h | h) <;> linarith), if_neg (by linarith),
      if_neg (by linarith)]
  · simp

theorem rubricWeights_nonneg (h : ∀ r ∈ rubric, ∀ x, 0 ≤ r.weights.of x) (x : StarSection) :
    0 ≤ (rubricWeights rubric).of x := by
  cases rubric with
  | none => cases x <;> norm_num [rubricWeights, defaultWeights, Weights.of]
  | some r => exact h r rfl x

/-- The default weights are whole numbers, too. -/
theorem rubricWeights_whole (h : ∀ r ∈ rubric, ∀ x, ∃ n : ℕ, r.weights.of x = n)
    (x : StarSection) : ∃ n : ℕ, (rubricWeights rubric).of x = n := by
  cases rubric with
  | none => cases x <;> exact ⟨25, rfl⟩
  | some r => exact h r rfl x

/-- A section scores from 0 to its weight, unless its weight is zero and it is matched. -/
theorem breakdown_in_range {x : StarSection} (hweight : 0 ≤ (rubricWeights rubric).of x)
    (h : (rubricWeights rubric).of x = 0 → sectionMatched toLowerCase text rubric x = false) :
    0 ≤ (evaluateStarResponse toLowerCase text rubric).breakdown.of x ∧
      (evaluateStarResponse toLowerCase text rubric).breakdown.of x ≤
        (rubricWeights rubric).of x := by
  rcases hweight.eq_or_lt with hzero | hpos
  · -- the section is not matched, so that the weight in place of the zero does not count
    rw [breakdown_of, h hzero.symm, scaledScore_unmatched]
    exact ⟨le_refl 0, hweight⟩
  · rw [breakdown_of, weightOr25_of_pos hpos]
    exact ⟨scaledScore_nonneg _ hweight _, scaledScore_le _ hweight _⟩

/-- Sections in range add up to a score in range. -/
theorem score_in_range (htotal : (rubricWeights rubric).sum = 100)
    (hsection : ∀ x, 0 ≤ (evaluateStarResponse toLowerCase text rubric).breakdown.of x ∧
      (evaluateStarResponse toLowerCase text rubric).breakdown.of x ≤
        (rubricWeights rubric).of x) :
    0 ≤ (evaluateStarResponse toLowerCase text rubric).score ∧
      (evaluateStarResponse toLowerCase text rubric).score ≤ 100 := by
  obtain ⟨hs, hs'⟩ := hsection .situation
  obtain ⟨ht, ht'⟩ := hsection .task
  obtain ⟨ha, ha'⟩ := hsection .action
  obtain ⟨hr, hr'⟩ := hsection .result
  have hweights : (rubricWeights rubric).of .situation + (rubricWeights rubric).of .task +
      (rubricWeights rubric).of .action + (rubricWeights rubric).of .result = 100 := htotal
  show 0 ≤ (evaluateStarResponse toLowerCase text rubric).breakdown.of .situation +
      (evaluateStarResponse toLowerCase text rubric).breakdown.of .task +
      (evaluateStarResponse toLowerCase text rubric).breakdown.of .action +
      (evaluateStarResponse toLowerCase text rubric).breakdown.of .result ∧
    (evaluateStarResponse toLowerCase text rubric).breakdown.of .situation +
      (evaluateStarResponse toLowerCase text rubric).breakdown.of .task +
      (evaluateStarResponse toLowerCase text rubric).breakdown.of .action +
      (evaluateStarResponse toLowerCase text rubric).breakdown.of .result ≤ 100
  constructor <;> linarith

end Evaluation

/-- **The scores of an answer are in range if and only if it speaks of no section of weight zero**,
for a rubric whose weights are whole numbers that sum to 100, or without a rubric. -/
theorem star_scores_in_range_iff (toLowerCase : String → String) (text : String)
    {rubric : Option Rubric} (hwhole : ∀ r ∈ rubric, ∀ x, ∃ n : ℕ, r.weights.of x = n)
    (hsum : ∀ r ∈ rubric, r.weights.sum = 100) :
    InRange toLowerCase text rubric ↔
      ∀ x, (rubricWeights rubric).of x = 0 → sectionMatched toLowerCase text rubric x = false := by
  constructor
  · -- a section of weight zero is scored with the weight 25 when it is matched
    intro h x hzero
    by_contra hmatched
    rw [Bool.not_eq_false] at hmatched
    have hpos := breakdown_of_weight_zero hzero hmatched
    have hle := (h.section_le x).2
    rw [hzero] at hle
    exact absurd hpos hle.not_gt
  · intro h
    have htotal : (rubricWeights rubric).sum = 100 := by
      cases hr : rubric with
      | none => norm_num [rubricWeights, defaultWeights, Weights.sum]
      | some r => exact hsum r hr
    have hweights := rubricWeights_whole hwhole
    have hsection := fun x => breakdown_in_range (by
      obtain ⟨n, hn⟩ := hweights x
      rw [hn]
      exact Nat.cast_nonneg n) (h x)
    have hscore := score_in_range htotal hsection
    refine ⟨hsection, rfl, hscore, fun P lessonId hid => ?_, fun x hpos => ?_,
      fun x hpos hhits => ?_⟩
    · exact progressSchema_submission P hid hscore.1 hscore.2
    · obtain ⟨n, hn⟩ := hweights x
      have hone : (1 : ℚ) ≤ (rubricWeights rubric).of x := by
        rw [hn] at hpos ⊢
        exact_mod_cast hpos
      rw [name_mem_missingSections, breakdown_of, weightOr25_of_pos hpos]
      cases sectionMatched toLowerCase text rubric x with
      | false => simp [scaledScore_unmatched]
      | true => simp [(scaledScore_pos hone _).ne']
    · obtain ⟨n, hn⟩ := hweights x
      rw [keywordHits_eq] at hhits
      rw [breakdown_of, weightOr25_of_pos hpos, sectionMatched_of_hits hhits, hn,
        scaledScore_of_hits n hhits]

/-- A rubric that gives no points for the situation. -/
def situationlessRubric : Rubric :=
  { weights := ⟨0, 30, 40, 30⟩
    keywords := ⟨["context"], ["goal"], ["led"], ["impact"]⟩ }

/-- An answer that does not speak of the situation. -/
theorem situationless_answer_in_range :
    InRange plainPlatform.toLowerCase "My goal was clear, and I led with impact."
      (some situationlessRubric) := by
  have hwhole : ∀ r ∈ some situationlessRubric, ∀ x, ∃ n : ℕ, r.weights.of x = n := by
    rintro r ⟨⟩ x
    cases x
    exacts [⟨0, rfl⟩, ⟨30, rfl⟩, ⟨40, rfl⟩, ⟨30, rfl⟩]
  have hsum : ∀ r ∈ some situationlessRubric, r.weights.sum = 100 := by
    rintro r ⟨⟩
    norm_num [situationlessRubric, Weights.sum]
  apply (star_scores_in_range_iff plainPlatform.toLowerCase _ hwhole hsum).mpr
  intro x hzero
  cases x with
  | situation => decide +kernel
  | task => exact absurd hzero (by decide)
  | action => exact absurd hzero (by decide)
  | result => exact absurd hzero (by decide)

/-- An answer that does speak of it gets 125 points. -/
theorem situation_of_weight_zero_scores :
    ¬ InRange plainPlatform.toLowerCase "In context, my goal was clear, and I led with impact."
      (some situationlessRubric) := by
  intro h
  have hle := h.score_le.2
  have hscore : (evaluateStarResponse plainPlatform.toLowerCase
      "In context, my goal was clear, and I led with impact." (some situationlessRubric)).score =
        125 := by decide +kernel
  rw [hscore] at hle
  exact absurd hle (by decide)

end LanguageGuru
