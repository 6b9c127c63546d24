import LanguageGuru.Frontend.StarScores
import Mathlib.Tactic.Linarith

/-!
# Adding to an answer

More text never costs points: every phrase, digit and keyword of an answer is still there when text
is put before and after it, and the points of a section grow with its keyword hits. The weights of a
rubric may be any numbers that are not negative.

## Main definitions

* `AtMost`: an evaluation is at most as good as another
* `LowersAscii`: what lower case is on ASCII texts

## Main results

* `atMost_of_contains`: an answer scores at most what one that contains it scores
* `adding_never_costs`: so does the answer with text before and after it
-/

namespace LanguageGuru

/-! ## Texts in texts -/

/-- A text that contains another one has all that the other one has. -/
theorem includes_mono {value value' t : String} (h : value.toList <:+: value'.toList)
    (ht : includes value t = true) : includes value' t = true := by
  have hwithin : t.toList <:+: value.toList := of_decide_eq_true ht
  exact decide_eq_true (hwithin.trans h)

theorem testAny_mono {value value' : String} (h : value.toList <:+: value'.toList)
    {alternatives : List String} (ht : testAny alternatives value = true) :
    testAny alternatives value' = true := by
  obtain ⟨t, hmem, hincludes⟩ := List.any_eq_true.mp ht
  exact List.any_eq_true.mpr ⟨t, hmem, includes_mono h hincludes⟩

/-- The keywords found are counted one by one. -/
theorem countKeywordHits_eq (toLowerCase : String → String) (text : String)
    (keywords : List String) :
    countKeywordHits toLowerCase text keywords =
      keywords.countP fun keyword =>
        keyword ≠ "" && includes (toLowerCase text) (toLowerCase keyword) := by
  have hfold : ∀ count, keywords.foldl
      (fun count keyword =>
        if keyword = "" then count
        else if includes (toLowerCase text) (toLowerCase keyword) then count + 1 else count)
      count = count + keywords.countP fun keyword =>
        keyword ≠ "" && includes (toLowerCase text) (toLowerCase keyword) := by
    induction keywords with
    | nil =>
      intro count
      rfl
    | cons keyword keywords ih =>
      intro count
      rw [List.foldl_cons, ih, List.countP_cons]
      by_cases hempty : keyword = ""
      · simp [hempty]
      · by_cases hfound : includes (toLowerCase text) (toLowerCase keyword) = true
        · simp [hempty, hfound]
          omega
        · simp [hempty, hfound]
  exact (hfold 0).trans (Nat.zero_add _)

theorem countKeywordHits_mono {toLowerCase : String → String} {text text' : String}
    (h : (toLowerCase text).toList <:+: (toLowerCase text').toList) (keywords : List String) :
    countKeywordHits toLowerCase text keywords ≤ countKeywordHits toLowerCase text' keywords := by
  rw [countKeywordHits_eq, countKeywordHits_eq]
  apply List.countP_mono_left
  intro keyword _ hfound
  rw [Bool.and_eq_true] at hfound ⊢
  exact ⟨hfound.1, includes_mono h hfound.2⟩

theorem or_mono {a b a' b' : Bool} (ha : a = true → a' = true) (hb : b = true → b' = true)
    (h : (a || b) = true) : (a' || b') = true :=
  (Bool.or_eq_true _ _).mpr (((Bool.or_eq_true _ _).mp h).imp ha hb)

/-- A section that is matched stays matched. -/
theorem starChecks_mono {value value' : String} (h : value.toList <:+: value'.toList)
    {hits hits' : Sections ℕ} (hhits : ∀ x, hits.of x ≤ hits'.of x) (x : StarSection) :
    (starChecks value hits).of x = true → (starChecks value' hits').of x = true := by
  have hpos : ∀ x, decide (hits.of x > 0) = true → decide (hits'.of x > 0) = true := by
    intro x hx
    have := hhits x
    simp only [decide_eq_true_eq] at hx ⊢
    omega
  cases x with
  | situation => exact or_mono (testAny_mono h) (hpos .situation)
  | task => exact or_mono (testAny_mono h) (hpos .task)
  | action => exact or_mono (testAny_mono h) (hpos .action)
  | result =>
    -- a digit matches the result too
    apply or_mono (or_mono (testAny_mono h) _) (hpos .result)
    intro hany
    obtain ⟨c, hc, hdigit⟩ := List.any_eq_true.mp hany
    exact List.any_eq_true.mpr ⟨c, h.subset hc, hdigit⟩

/-! ## Evaluations -/

section Evaluation

variable {toLowerCase : String → String} {text : String} {rubric : Option Rubric}

/-- Every section has as many keyword hits and points, no further section is missing, and the score
is as large. -/
structure AtMost (before after : Evaluation) : Prop where
  keywordHits : ∀ x, before.keywordHits.of x ≤ after.keywordHits.of x
  breakdown : ∀ x, before.breakdown.of x ≤ after.breakdown.of x
  missingSections : after.missingSections ⊆ before.missingSections
  score : before.score ≤ after.score

/-- The score is the sum of the points. -/
theorem score_eq :
    (evaluateStarResponse toLowerCase text rubric).score =
      (evaluateStarResponse toLowerCase text rubric).breakdown.of .situation +
        (evaluateStarResponse toLowerCase text rubric).breakdown.of .task +
        (evaluateStarResponse toLowerCase text rubric).breakdown.of .action +
        (evaluateStarResponse toLowerCase text rubric).breakdown.of .result := rfl

/-- **An answer scores at most what an answer that contains it scores**, when lower case keeps the
one in the other. -/
theorem atMost_of_contains (hweights : ∀ r ∈ rubric, ∀ x, 0 ≤ r.weights.of x) {text' : String}
    (hvalue : (toLowerCase text).toList <:+: (toLowerCase text').toList)
    (hagain : (toLowerCase (toLowerCase text)).toList <:+:
      (toLowerCase (toLowerCase text')).toList) :
    AtMost (evaluateStarResponse toLowerCase text rubric)
      (evaluateStarResponse toLowerCase text' rubric) := by
  have hhits : ∀ x, (sectionHits toLowerCase text rubric).of x ≤
      (sectionHits toLowerCase text' rubric).of x := by
    intro x
    cases x <;> exact countKeywordHits_mono hagain _
  have hmatched : ∀ x, sectionMatched toLowerCase text rubric x = true →
      sectionMatched toLowerCase text' rubric x = true := by
    intro x
    exact starChecks_mono hvalue hhits x
  have hbreakdown : ∀ x, (evaluateStarResponse toLowerCase text rubric).breakdown.of x ≤
      (evaluateStarResponse toLowerCase text' rubric).breakdown.of x := by
    intro x
    rw [breakdown_of, breakdown_of]
    exact scaledScore_mono (hmatched x) (weightOr25_nonneg (rubricWeights_nonneg hweights x))
      (hhits x)
  refine ⟨hhits, hbreakdown, ?_, ?_⟩
  · -- a section that is missing from the longer answer is missing from the shorter one
    intro name hname
    obtain ⟨x, hx, hmissing⟩ := mem_missingSections.mp hname
    apply mem_missingSections.mpr
    refine ⟨x, hx, Bool.eq_false_of_not_eq_true ?_⟩
    intro h
    rw [hmatched x h] at hmissing
    exact Bool.noConfusion hmissing
  · have hsituation := hbreakdown .situation
    have htask := hbreakdown .task
    have haction := hbreakdown .action
    have hresult := hbreakdown .result
    rw [score_eq, score_eq]
    linarith

end Evaluation

/-! ## ASCII texts -/

def IsAscii (text : String) : Prop := ∀ c ∈ text.toList, c.toNat < 128

instance (text : String) : Decidable (IsAscii text) :=
  List.decidableBAll (fun c : Char => c.toNat < 128) text.toList

/-- Lower case takes an ASCII text letter by letter. -/
def LowersAscii (toLowerCase : String → String) : Prop :=
  ∀ text, IsAscii text → toLowerCase text = String.ofList (text.toList.map Char.toLower)

theorem plain_lowersAscii : LowersAscii plainPlatform.toLowerCase := fun _ _ => rfl

theorem IsAscii.append {s t : String} (hs : IsAscii s) (ht : IsAscii t) : IsAscii (s ++ t) := by
  intro c hc
  rw [String.toList_append] at hc
  rcases List.mem_append.mp hc with h | h
  · exact hs c h
  · exact ht c h

theorem toLower_lt {c : Char} (h : c.toNat < 128) : c.toLower.toNat < 128 := by
  delta Char.toLower
  split
  · rename_i hupper
    have h65 : 'A'.val.toNat = 65 := rfl
    have h90 : 'Z'.val.toNat = 90 := rfl
    have hle : c.val.toNat ≤ 90 := by
      have := UInt32.le_iff_toNat_le.mp hupper.2
      omega
    show (c.val + ('a'.val - 'A'.val)).toNat < 128
    rw [UInt32.toNat_add]
    have h32 : ('a'.val - 'A'.val).toNat = 32 := rfl
    omega
  · exact h

section Ascii

variable {toLowerCase : String → String} (hlower : LowersAscii toLowerCase)

include hlower

theorem LowersAscii.isAscii {s : String} (hs : IsAscii s) : IsAscii (toLowerCase s) := by
  intro c hc
  rw [hlower s hs, String.toList_ofList] at hc
  obtain ⟨d, hd, rfl⟩ := List.mem_map.mp hc
  exact toLower_lt (hs d hd)

theorem LowersAscii.isInfix {s t : String} (hs : IsAscii s) (ht : IsAscii t)
    (h : s.toList <:+: t.toList) : (toLowerCase s).toList <:+: (toLowerCase t).toList := by
  rw [hlower s hs, hlower t ht, String.toList_ofList, String.toList_ofList]
  exact h.map Char.toLower

end Ascii

/-- **Adding text before and after an answer never costs points**: for ASCII texts and a rubric
without negative weights. -/
theorem adding_never_costs {toLowerCase : String → String} (hlower : LowersAscii toLowerCase)
    {t u v : String} (ht : IsAscii t) (hu : IsAscii u) (hv : IsAscii v)
    (rubric : Option Rubric) (hweights : ∀ r ∈ rubric, ∀ x, 0 ≤ r.weights.of x) :
    AtMost (evaluateStarResponse toLowerCase t rubric)
      (evaluateStarResponse toLowerCase (u ++ t ++ v) rubric) := by
  have hlonger : IsAscii (u ++ t ++ v) := (hu.append ht).append hv
  have hwithin : t.toList <:+: (u ++ t ++ v).toList := by
    rw [String.toList_append, String.toList_append]
    exact ⟨u.toList, v.toList, rfl⟩
  have hvalue := hlower.isInfix ht hlonger hwithin
  apply atMost_of_contains hweights hvalue
  exact hlower.isInfix (hlower.isAscii ht) (hlower.isAscii hlonger) hvalue

/-- A rubric with halves for weights. -/
def halvesRubric : Rubric where
  weights := ⟨25 / 2, 75 / 2, 0, 30⟩
  keywords := ⟨["context"], ["goal"], ["led"], ["impact"]⟩

theorem more_text_scores_no_less :
    AtMost
      (evaluateStarResponse plainPlatform.toLowerCase "My goal" (some halvesRubric))
      (evaluateStarResponse plainPlatform.toLowerCase
        ("In context: " ++ "My goal" ++ " was met by 30%.") (some halvesRubric)) := by
  have hweights : ∀ r ∈ some halvesRubric, ∀ x, 0 ≤ r.weights.of x := by
    rintro r ⟨⟩ x
    cases x <;> norm_num [halvesRubric, Weights.of]
  have hgoal : IsAscii "My goal" := by simp [IsAscii]
  have hbefore : IsAscii "In context: " := by simp [IsAscii]
  have hafter : IsAscii " was met by 30%." := by simp [IsAscii]
  exact adding_never_costs plain_lowersAscii hgoal hbefore hafter _ hweights

end LanguageGuru
