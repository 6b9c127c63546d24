import LanguageGuru.Frontend.GradedText
import LanguageGuru.Frontend.StarMonotone

/-!
# The suggested answers of a simulation

With every round the simulation suggests an answer, which the screen could grade as it grades those
of the user. A suggestion always speaks of its situation, its task and its result. Of an action it
speaks in three cases only: the prompt of the round has a phrase of an action, the rubric has a
keyword that the suggestion hits, or the answer of the user had an action and the role is neither a
product nor a data role. The suggestion for an answer without an action therefore lacks it again.

## Main definitions

* `actionPhrases`: the phrases by which an answer speaks of an action
* `LowersAcross`: lower case does not look across a space or a comma
* `Suggests`: what a suggested answer speaks of

## Main results

* `suggests_buildSuggestedStarAnswer`: every suggested answer is as `Suggests` says
* `suggestions_graded`: so is that of every round of every simulation
-/

namespace LanguageGuru

open Process

/-- The phrases of the `action` check. -/
def actionPhrases : List String :=
  ["led", "built", "created", "implemented", "designed", "organized", "coordinated", "improved",
    "analyzed", "launched"].map ("i " ++ ·)

/-- The phrases for a role in `buildSuggestedStarAnswer` are those of an engineer. -/
def engineers (normalizedRole : String) : Bool :=
  !includes normalizedRole "product" && !includes normalizedRole "data"

/-- Lower case takes a text letter by letter while it is ASCII, and what stands on either side of a
space or a comma by itself. -/
structure LowersAcross (toLowerCase : String → String) : Prop where
  ascii : LowersAscii toLowerCase
  across : ∀ c ∈ [' ', ','], ∀ s t : String,
    toLowerCase (s ++ String.singleton c ++ t) =
      toLowerCase s ++ String.singleton c ++ toLowerCase t

theorem plain_lowersAcross : LowersAcross plainPlatform.toLowerCase where
  ascii := plain_lowersAscii
  across c hc s t := by
    have hself : c.toLower = c := by
      rcases List.mem_pair.mp hc with rfl | rfl <;> rfl
    refine String.toList_inj.mp ?_
    simp [plainPlatform, hself]

/-! ## Texts in parts -/

section Parts

variable {α : Type} {t a b : List α}

/-- A prefix that has no `c` ends before it. -/
theorem prefix_of_prefix_append_cons {c : α} (hc : c ∉ t) (h : t <+: a ++ c :: b) : t <+: a := by
  rcases List.prefix_or_prefix_of_prefix h (List.prefix_append a (c :: b)) with h' | ⟨rest, rfl⟩
  · exact h'
  · rcases List.prefix_cons_iff.mp ((List.prefix_append_right_inj a).mp h) with rfl | ⟨r, rfl, -⟩
    · rw [List.append_nil]
    · exact absurd (List.mem_append_right a List.mem_cons_self) hc

/-- A part of a list that has no `c` is before it or after it. -/
theorem infix_append_cons_iff {c : α} (hc : c ∉ t) :
    t <:+: a ++ c :: b ↔ t <:+: a ∨ t <:+: b := by
  constructor
  · intro h
    induction a with
    | nil =>
      rcases List.infix_cons_iff.mp h with h | h
      · have hnil : t <+: [] := prefix_of_prefix_append_cons hc h
        exact .inl hnil.isInfix
      · exact .inr h
    | cons x a ih =>
      rcases List.infix_cons_iff.mp h with h | h
      · have hbefore : t <+: x :: a := prefix_of_prefix_append_cons hc h
        exact .inl hbefore.isInfix
      · exact (ih h).imp_left fun h => h.trans (List.suffix_cons x a).isInfix
  · rintro (h | h)
    · exact h.trans (List.prefix_append _ _).isInfix
    · exact h.trans ((List.suffix_cons c b).trans (List.suffix_append _ _)).isInfix

/-- A part of a list that meets nothing of `a` is after it. -/
theorem infix_of_infix_append (h : ∀ a' ∈ a.tails, a' ≠ [] → ¬ a' <+: t ∧ ¬ t <+: a') :
    t <:+: a ++ b → t <:+: b := by
  induction a with
  | nil => exact id
  | cons x a ih =>
    intro ht
    rcases List.infix_cons_iff.mp ht with ht | ht
    · have hself := h (x :: a) (by simp) (List.cons_ne_nil _ _)
      rcases List.prefix_or_prefix_of_prefix ht (List.prefix_append (x :: a) b) with h' | h'
      · exact absurd h' hself.2
      · exact absurd h' hself.1
    · refine ih (fun a' ha' => h a' ((List.mem_tails _ _).mpr ?_)) ht
      exact ((List.mem_tails _ _).mp ha').trans (List.suffix_cons x a)

end Parts

/-! ## The sentences -/

/-- No phrase of an action meets the text, not even together with what stands after it. -/
def Actionless (text : List Char) : Prop :=
  ∀ a ∈ (text.map Char.toLower).tails, a ≠ [] → a.take 2 <+: ['i', ' '] →
    ∀ phrase ∈ actionPhrases, ¬ a <+: phrase.toList ∧ ¬ phrase.toList <+: a

instance (text : List Char) : Decidable (Actionless text) :=
  inferInstanceAs (Decidable (∀ a ∈ (text.map Char.toLower).tails, a ≠ [] →
    a.take 2 <+: ['i', ' '] → ∀ phrase ∈ actionPhrases,
      ¬ a <+: phrase.toList ∧ ¬ phrase.toList <+: a))

theorem prefix_of_actionPhrases {phrase : String} (h : phrase ∈ actionPhrases) :
    ['i', ' '] <+: phrase.toList := by
  obtain ⟨verb, -, rfl⟩ := List.mem_map.mp h
  rw [String.toList_append]
  exact List.prefix_append _ _

/-- A phrase of an action after an actionless text. -/
theorem Actionless.infix_append_iff {text rest : List Char} (h : Actionless text) {phrase : String}
    (hphrase : phrase ∈ actionPhrases) :
    phrase.toList <:+: text.map Char.toLower ++ rest ↔ phrase.toList <:+: rest := by
  refine ⟨infix_of_infix_append fun a ha hne => ?_, fun hrest =>
    hrest.trans (List.suffix_append _ _).isInfix⟩
  have hi := prefix_of_actionPhrases hphrase
  -- a text that meets a phrase begins as it does
  have hbegins : a <+: phrase.toList ∨ phrase.toList <+: a → a.take 2 <+: ['i', ' '] := by
    intro hmeets
    have hlength : (a.take 2).length ≤ ['i', ' '].length := List.length_take_le 2 a
    rcases hmeets with ha | ha
    · exact List.prefix_of_prefix_length_le ((List.take_prefix 2 a).trans ha) hi hlength
    · exact List.prefix_of_prefix_length_le (List.take_prefix 2 a) (hi.trans ha) hlength
  exact ⟨fun hmeets => (h a ha hne (hbegins (.inl hmeets)) phrase hphrase).1 hmeets,
    fun hmeets => (h a ha hne (hbegins (.inr hmeets)) phrase hphrase).2 hmeets⟩

/-- What a sentence of a suggested answer is: ASCII, with its phrase, and with a phrase of an action
or none. -/
structure Sentence (text : List Char) (phrase : String) (acts : Bool) : Prop where
  ascii : ∀ c ∈ text, c.toNat < 128
  speaks : phrase.toList <:+: text.map Char.toLower
  acting : acts = true → "i designed".toList <:+: text.map Char.toLower
  idle : acts = false → Actionless (text ++ [' '])

instance (text : List Char) (phrase : String) (acts : Bool) :
    Decidable (Sentence text phrase acts) :=
  haveI : Decidable (∀ c ∈ text, c.toNat < 128) := List.decidableBAll _ _
  decidable_of_iff ((∀ c ∈ text, c.toNat < 128) ∧ phrase.toList <:+: text.map Char.toLower ∧
      (acts = true → "i designed".toList <:+: text.map Char.toLower) ∧
      (acts = false → Actionless (text ++ [' '])))
    ⟨fun h => ⟨h.1, h.2.1, h.2.2.1, h.2.2.2⟩, fun h => ⟨h.ascii, h.speaks, h.acting, h.idle⟩⟩

/-- A phrase of an action after a sentence that does not act. -/
theorem Sentence.infix_append_iff {text rest : List Char} {phrase' phrase : String}
    (h : Sentence text phrase' false) (hphrase : phrase ∈ actionPhrases) :
    phrase.toList <:+: text.map Char.toLower ++ ' ' :: rest ↔ phrase.toList <:+: rest := by
  have hspace : text.map Char.toLower ++ ' ' :: rest =
      (text ++ [' ']).map Char.toLower ++ rest := by
    rw [List.map_append, List.append_assoc]
    rfl
  rw [hspace]
  exact (h.idle rfl).infix_append_iff hphrase

/-- The characters of a text that is written in parts. -/
theorem toList_append_eq {s t : String} {cs ds : List Char} (hs : s.toList = cs)
    (ht : t.toList = ds) : (s ++ t).toList = cs ++ ds := by
  rw [String.toList_append, hs, ht]

theorem sentence_of_toList {text : String} {cs : List Char} (h : text.toList = cs)
    {phrase : String} {acts : Bool} (hs : Sentence cs phrase acts) :
    Sentence text.toList phrase acts := by
  rw [h]
  exact hs

section Sentences

variable (toLowerCase : String → String) (prompt : String) (missingSections : List String)
  (role : Option String)

/-- Whether a suggestion speaks of an action by itself. -/
def actsByItself : Bool :=
  engineers (toLowerCase (role.getD "Professional")) && !missingSections.contains "action"

/-- The cue of a suggestion. -/
def cue : String := if prompt = "" then "a common interview challenge" else prompt

set_option maxRecDepth 2000 in
/-- The sentences of a suggested answer. -/
theorem exists_sentences :
    ∃ situation task action result : String,
      buildSuggestedStarAnswer toLowerCase prompt missingSections role =
        " ".intercalate ["For the question about " ++ toLowerCase (cue prompt) ++
          ", you can answer like this:", situation, task, action, result] ∧
      Sentence situation.toList "in my previous" false ∧ Sentence task.toList "task" false ∧
      Sentence action.toList "i " (actsByItself toLowerCase missingSections role) ∧
      Sentence result.toList "result" false := by
  have hlit : ∀ {cs : List Char}, (String.ofList cs).toList = cs := String.toList_ofList
  unfold buildSuggestedStarAnswer cue actsByItself engineers rolePhrases
  refine ⟨_, _, _, _, rfl, ?_, ?_, ?_, ?_⟩
  all_goals dsimp only
  · split_ifs
    · exact sentence_of_toList (toList_append_eq hlit hlit) (by decide +kernel)
    all_goals
      exact sentence_of_toList (toList_append_eq (toList_append_eq hlit hlit) hlit)
        (by decide +kernel)
  · split_ifs <;> exact sentence_of_toList hlit (by decide +kernel)
  · split_ifs with hmissing hproduct hdata
    · rw [hmissing, Bool.not_true, Bool.and_false]
      exact sentence_of_toList (toList_append_eq hlit hlit) (by decide +kernel)
    · rw [hproduct, Bool.not_true, Bool.false_and, Bool.false_and]
      exact sentence_of_toList (toList_append_eq hlit hlit) (by decide +kernel)
    · rw [hdata, Bool.not_true, Bool.and_false, Bool.false_and]
      exact sentence_of_toList (toList_append_eq hlit hlit) (by decide +kernel)
    · rw [Bool.eq_false_iff.mpr hproduct, Bool.eq_false_iff.mpr hdata,
        Bool.eq_false_iff.mpr hmissing]
      exact sentence_of_toList (toList_append_eq hlit hlit) (by decide +kernel)
  · split_ifs
    · exact sentence_of_toList (toList_append_eq hlit hlit) (by decide +kernel)
    all_goals
      exact sentence_of_toList (toList_append_eq (toList_append_eq hlit hlit) hlit)
        (by decide +kernel)

end Sentences

/-! ## A suggestion in lower case -/

section Lowered

/-- What stands after the cue of a suggestion. -/
def afterCue (lead situation task action result : List Char) : List Char :=
  lead ++ (situation ++ ' ' :: (task ++ ' ' :: (action ++ ' ' :: result)))

theorem intercalate_five (sep a b c d e : String) :
    sep.intercalate [a, b, c, d, e] = a ++ sep ++ b ++ sep ++ c ++ sep ++ d ++ sep ++ e := rfl

/-- A suggestion is its cue, between a space and a comma. -/
theorem suggestion_eq (c situation task action result : String) :
    " ".intercalate ["For the question about " ++ c ++ ", you can answer like this:", situation,
      task, action, result] =
    "For the question about" ++ String.singleton ' ' ++ c ++ String.singleton ',' ++
      (" you can answer like this: " ++
        (situation ++ " " ++ (task ++ " " ++ (action ++ " " ++ result)))) := by
  have hbefore : "For the question about " = "For the question about" ++ String.singleton ' ' := by
    decide +kernel
  have hcomma : ", you can answer like this:" =
      String.singleton ',' ++ " you can answer like this:" := by
    decide +kernel
  have hspace : " you can answer like this: " = " you can answer like this:" ++ " " := by
    decide +kernel
  rw [intercalate_five, hbefore, hcomma, hspace]
  simp only [String.append_assoc]

variable {toLowerCase : String → String}

theorem LowersAscii.toList_eq (h : LowersAscii toLowerCase) {text : String} (ht : IsAscii text) :
    (toLowerCase text).toList = text.toList.map Char.toLower := by
  rw [h text ht, String.toList_ofList]

/-- The characters of a suggestion in lower case. -/
theorem toList_toLowerCase_suggestion (hlower : LowersAcross toLowerCase) (c : String)
    {situation task action result : String} (hs : IsAscii situation) (ht : IsAscii task)
    (ha : IsAscii action) (hr : IsAscii result) :
    ∃ before lead : List Char, Actionless before ∧ Actionless lead ∧
      (toLowerCase (" ".intercalate ["For the question about " ++ c ++
        ", you can answer like this:", situation, task, action, result])).toList =
        before.map Char.toLower ++ ((toLowerCase c).toList ++ ',' ::
          (afterCue lead situation.toList task.toList action.toList result.toList).map
            Char.toLower) := by
  have hbefore : IsAscii "For the question about" := by decide +kernel
  have hlead : IsAscii " you can answer like this: " := by decide +kernel
  have hspace : IsAscii " " := by decide +kernel
  have hrest : IsAscii (" you can answer like this: " ++
      (situation ++ " " ++ (task ++ " " ++ (action ++ " " ++ result)))) :=
    hlead.append ((hs.append hspace).append ((ht.append hspace).append
      ((ha.append hspace).append hr)))
  refine ⟨"For the question about".toList ++ [' '], " you can answer like this: ".toList,
    by decide +kernel, by decide +kernel, ?_⟩
  rw [suggestion_eq, hlower.across ',' (by simp), hlower.across ' ' (by simp)]
  simp only [String.toList_append, String.toList_singleton]
  rw [hlower.ascii.toList_eq hbefore, hlower.ascii.toList_eq hrest]
  generalize "For the question about" = before
  generalize " you can answer like this: " = lead
  have hblank : " ".toList = [' '] := rfl
  simp only [afterCue, String.toList_append, hblank, List.map_append, List.map_cons,
    List.append_assoc]
  rfl

theorem testAny_eq_true {alternatives : List String} {value : String} :
    testAny alternatives value = true ↔
      ∃ phrase ∈ alternatives, phrase.toList <:+: value.toList := by
  simp [testAny, includes]

/-- What a suggestion in lower case speaks of, given its cue. -/
structure Spoken (acts : Bool) (c value : String) : Prop where
  situation : includes value "in my previous" = true
  task : includes value "task" = true
  result : includes value "result" = true
  action : testAny actionPhrases value = (testAny actionPhrases c || acts)

/-- Nothing that stands after the cue meets a phrase of an action, but for a sentence that acts. -/
theorem afterCue_acts {lead situation task action result : List Char} {acts : Bool}
    (hlead : Actionless lead) (hs : Sentence situation "in my previous" false)
    (ht : Sentence task "task" false) (ha : Sentence action "i " acts)
    (hr : Sentence result "result" false) :
    (∃ phrase ∈ actionPhrases,
      phrase.toList <:+: (afterCue lead situation task action result).map Char.toLower) ↔
      acts = true := by
  have hskip : ∀ phrase ∈ actionPhrases,
      (phrase.toList <:+: (afterCue lead situation task action result).map Char.toLower ↔
        phrase.toList <:+: action.map Char.toLower ++ ' ' :: result.map Char.toLower) := by
    intro phrase hphrase
    have hspace : (' ').toLower = ' ' := rfl
    simp only [afterCue, List.map_append, List.map_cons, hspace]
    rw [hlead.infix_append_iff hphrase, hs.infix_append_iff hphrase, ht.infix_append_iff hphrase]
  constructor
  · rintro ⟨phrase, hphrase, hmeets⟩
    by_contra hacts
    obtain rfl : acts = false := Bool.eq_false_iff.mpr hacts
    rw [hskip phrase hphrase, ha.infix_append_iff hphrase] at hmeets
    -- nor does the last sentence have one
    have hlast := hmeets.trans (List.prefix_append _ (' ' :: [])).isInfix
    rw [hr.infix_append_iff hphrase] at hlast
    have hi := (prefix_of_actionPhrases hphrase).isInfix.trans hlast
    exact absurd (List.infix_nil.mp hi) (List.cons_ne_nil _ _)
  · intro hacts
    have hmem : "i designed" ∈ actionPhrases := by decide +kernel
    refine ⟨_, hmem, (hskip _ hmem).mpr ?_⟩
    exact (ha.acting hacts).trans (List.prefix_append _ _).isInfix

/-- **What a suggestion speaks of.** -/
theorem spoken_suggestion (hlower : LowersAcross toLowerCase) (c : String)
    {situation task action result : String} {acts : Bool}
    (hs : Sentence situation.toList "in my previous" false)
    (ht : Sentence task.toList "task" false) (ha : Sentence action.toList "i " acts)
    (hr : Sentence result.toList "result" false) :
    Spoken acts (toLowerCase c) (toLowerCase (" ".intercalate ["For the question about " ++ c ++
      ", you can answer like this:", situation, task, action, result])) := by
  obtain ⟨before, lead, hbefore, hlead, hvalue⟩ :=
    toList_toLowerCase_suggestion hlower c hs.ascii ht.ascii ha.ascii hr.ascii
  generalize toLowerCase (" ".intercalate ["For the question about " ++ c ++
    ", you can answer like this:", situation, task, action, result]) = value at hvalue ⊢
  have hspeaks : ∀ {text : List Char} {phrase : String} {acts : Bool},
      Sentence text phrase acts →
      text <:+: afterCue lead situation.toList task.toList action.toList result.toList →
      includes value phrase = true := by
    intro text phrase acts h htext
    refine decide_eq_true ?_
    rw [hvalue]
    refine (h.speaks.trans (htext.map Char.toLower)).trans ?_
    exact ((List.suffix_cons _ _).trans (List.suffix_append _ _)).isInfix.trans
      (List.suffix_append _ _).isInfix
  refine ⟨hspeaks hs ?_, hspeaks ht ?_, hspeaks hr ?_, ?_⟩
  · exact ⟨lead, _, by rw [afterCue, List.append_assoc]⟩
  · exact ⟨lead ++ situation.toList ++ [' '], ' ' :: (action.toList ++ ' ' :: result.toList),
      by simp [afterCue]⟩
  · exact ⟨lead ++ situation.toList ++ ' ' :: (task.toList ++ ' ' :: (action.toList ++ [' '])), [],
      by simp [afterCue]⟩
  · rw [Bool.eq_iff_iff, Bool.or_eq_true, testAny_eq_true, testAny_eq_true, hvalue,
      ← afterCue_acts hlead hs ht ha hr, ← exists_or]
    refine exists_congr fun phrase => ?_
    rw [← and_or_left]
    refine and_congr_right fun hphrase => ?_
    have hcomma : ',' ∉ phrase.toList := by
      revert phrase
      decide +kernel
    rw [hbefore.infix_append_iff hphrase, infix_append_cons_iff hcomma]

end Lowered

/-! ## A suggestion that is graded -/

/-- The action of an answer is matched by a phrase or by a keyword. -/
theorem sectionMatched_action (toLowerCase : String → String) (text : String)
    (rubric : Option Rubric) :
    sectionMatched toLowerCase text rubric .action =
      (testAny actionPhrases (toLowerCase text) ||
        decide (0 < (sectionHits toLowerCase text rubric).action)) := rfl

/-- **What the grader finds in a suggested answer.** -/
theorem sectionMatched_suggestion {toLowerCase : String → String}
    (hlower : LowersAcross toLowerCase) (prompt : String) (missingSections : List String)
    (role : Option String) (rubric : Option Rubric) (x : StarSection) :
    let suggested := buildSuggestedStarAnswer toLowerCase prompt missingSections role
    sectionMatched toLowerCase suggested rubric x = true ↔
      x ≠ .action ∨ testAny actionPhrases (toLowerCase (toLowerCase (cue prompt))) = true ∨
        actsByItself toLowerCase missingSections role = true ∨
          0 < (sectionHits toLowerCase suggested rubric).action := by
  intro suggested
  obtain ⟨situation, task, action, result, heq, hs, ht, ha, hr⟩ :=
    exists_sentences toLowerCase prompt missingSections role
  have hspoken := spoken_suggestion hlower (toLowerCase (cue prompt)) hs ht ha hr
  rw [← heq] at hspoken
  have hmatched : ∀ {alternatives : List String} {phrase : String}, phrase ∈ alternatives →
      includes (toLowerCase suggested) phrase = true →
      testAny alternatives (toLowerCase suggested) = true := fun hmem hphrase =>
    List.any_eq_true.mpr ⟨_, hmem, hphrase⟩
  by_cases hx : x = .action
  · subst hx
    rw [sectionMatched_action, hspoken.action]
    simp [or_assoc]
  · refine iff_of_true ?_ (.inl hx)
    unfold sectionMatched
    cases x with
    | situation => exact Bool.or_eq_true_iff.mpr (.inl (hmatched (by simp) hspoken.situation))
    | task => exact Bool.or_eq_true_iff.mpr (.inl (hmatched (by simp) hspoken.task))
    | result =>
      refine Bool.or_eq_true_iff.mpr (.inl (Bool.or_eq_true_iff.mpr (.inl ?_)))
      exact hmatched (by simp) hspoken.result
    | action => exact absurd rfl hx

/-! ## The suggestions of a simulation -/

/-- A round always has a prompt. -/
theorem prompt_ne_empty {lessons : List LessonResponse} {round : InterviewRound}
    (h : round ∈ buildInterviewRounds lessons) : round.prompt ≠ "" := by
  obtain ⟨i, hi, rfl⟩ := List.mem_mapIdx.mp h
  have hdefault : "Round " ++ toString (i + 1) ++
      ": Answer clearly with Situation, Task, Action, and Result." ≠ "" := by
    simp
  intro hempty
  simp only [orElse] at hempty
  split at hempty
  · split_ifs at hempty with hquestion
    · exact hdefault hempty
    · exact hquestion hempty
  · exact hdefault hempty

namespace SimulationState

variable {R : InterviewRound → Prop} {ctx : ScreenContext} {s s' : SimulationState}

/-- The result of a round that meets `R`. -/
def Graded (R : InterviewRound → Prop) (ctx : ScreenContext) (result : RoundResult) : Prop :=
  ∃ round, R round ∧ ∃ text autoSubmit, result = roundResult ctx round text autoSubmit

/-- Every round that the simulation shows, submits or has recorded meets `R`. -/
structure FromRounds (R : InterviewRound → Prop) (ctx : ScreenContext) (s : SimulationState) :
    Prop where
  rounds : ∀ round ∈ s.simulationRounds, R round
  timer : ∀ r ∈ s.timer, ∀ round ∈ r.currentSimulationRound, R round
  pending : ∀ submission ∈ s.pending, Graded R ctx submission.result
  results : ∀ result ∈ s.simulationResults, Graded R ctx result

theorem FromRounds.render (h : s.FromRounds R ctx) :
    ∀ round ∈ s.render.currentSimulationRound, R round := fun round hround =>
  h.rounds round (List.mem_of_getElem? hround)

theorem FromRounds.rerender (h : s'.FromRounds R ctx) : (s.rerender s').FromRounds R ctx := by
  unfold SimulationState.rerender
  split
  · exact h
  · refine ⟨h.rounds, fun r hr => ?_, h.pending, h.results⟩
    have hr : s'.timerEffect = some r := hr
    unfold timerEffect at hr
    split_ifs at hr
    obtain rfl := Option.some.inj hr
    exact h.render

theorem FromRounds.handleSimulationSubmit (h : s.FromRounds R ctx) {r : Render}
    (hr : ∀ round ∈ r.currentSimulationRound, R round) (autoSubmit : Bool) :
    (s.handleSimulationSubmit ctx r autoSubmit).FromRounds R ctx := by
  rw [handleSimulationSubmit_eq]
  cases hgraded : r.graded with
  | none => exact h
  | some p =>
    obtain ⟨hround, -, -⟩ := Render.graded_eq_some.mp hgraded
    refine ⟨h.rounds, h.timer, fun submission hsubmission => ?_, h.results⟩
    rcases List.mem_append.mp hsubmission with hold | hnew
    · exact h.pending submission hold
    · rw [List.mem_singleton.mp hnew]
      exact ⟨p.1, hr p.1 hround, p.2, autoSubmit, rfl⟩

/-- **Every event shows, submits and records rounds that meet `R`**, if those of the simulations
that start do. -/
theorem FromRounds.step (h : s.FromRounds R ctx) {e : SimulationEvent}
    (hstart : ∀ trackLessons, e = .start trackLessons →
      ∀ round ∈ buildInterviewRounds trackLessons.lessons, R round) :
    (s.step ctx e).FromRounds R ctx := by
  refine FromRounds.rerender ?_
  cases e with
  | start trackLessons => exact ⟨hstart trackLessons rfl, h.timer, h.pending, nofun⟩
  | type text =>
    show (s.changeText text).FromRounds R ctx
    unfold changeText
    split
    · exact ⟨h.rounds, h.timer, h.pending, h.results⟩
    · exact h
  | submit =>
    show (s.pressSubmit ctx).FromRounds R ctx
    unfold pressSubmit
    split
    · exact h.handleSimulationSubmit h.render false
    · exact h
  | tick =>
    show (s.tick ctx).FromRounds R ctx
    unfold tick
    split
    · exact h
    · rename_i r htimer
      split
      · have hnext := h.handleSimulationSubmit (h.timer r htimer) true
        exact ⟨hnext.rounds, nofun, hnext.pending, hnext.results⟩
      · exact ⟨h.rounds, h.timer, h.pending, h.results⟩
  | submitted i =>
    show (s.completeSubmission i).FromRounds R ctx
    unfold completeSubmission
    split
    · exact h
    · rename_i submission hsubmission
      refine ⟨h.rounds, h.timer, fun other hother => ?_, fun result hresult => ?_⟩
      · exact h.pending other (List.mem_of_mem_eraseIdx hother)
      · rcases List.mem_append.mp hresult with hold | hnew
        · exact h.results result hold
        · rw [List.mem_singleton.mp hnew]
          exact h.pending submission (List.mem_of_getElem? hsubmission)
  | exit =>
    show s.pressExit.FromRounds R ctx
    unfold pressExit
    split
    · exact ⟨nofun, h.timer, h.pending, nofun⟩
    · exact h

end SimulationState

/-- **The suggested answers of a simulation, graded as answers.** In every run of the screen, the
suggestion recorded for a round misses no section but the action. It misses the action exactly when
the prompt has no phrase of an action, the suggestion hits no keyword of the action, and either the
answer of the user missed the action too or the user has a product or a data role. -/
theorem suggestions_graded (ctx : ScreenContext) (hlower : LowersAcross ctx.toLowerCase)
    (events : List SimulationEvent) :
    ∀ result ∈ (run (SimulationState.step ctx) initialSimulation events).simulationResults,
      ∃ trackLessons, .start trackLessons ∈ events ∧
        ∃ round ∈ buildInterviewRounds trackLessons.lessons, ∃ text,
          result = SimulationState.roundResult ctx round text result.timedOut ∧
          let graded := evaluateStarResponse ctx.toLowerCase text round.rubric
          let again := evaluateStarResponse ctx.toLowerCase result.suggestedAnswer round.rubric
          (∀ name ∈ again.missingSections, name = "action") ∧
          ("action" ∈ again.missingSections ↔
            testAny actionPhrases (ctx.toLowerCase (ctx.toLowerCase round.prompt)) = false ∧
            again.keywordHits.action = 0 ∧
            ("action" ∈ graded.missingSections ∨
              engineers (ctx.toLowerCase (ctx.role.getD "Professional")) = false)) := by
  intro result hresult
  have hfrom := run_invariant_of_mem (I := SimulationState.FromRounds
      (fun round => ∃ trackLessons, .start trackLessons ∈ events ∧
        round ∈ buildInterviewRounds trackLessons.lessons) ctx)
    (fun s e he h => h.step fun trackLessons heq round hround =>
      ⟨trackLessons, heq ▸ he, hround⟩)
    (s := initialSimulation) ⟨nofun, nofun, nofun, nofun⟩
  obtain ⟨round, ⟨trackLessons, hstart, hround⟩, text, autoSubmit, rfl⟩ :=
    hfrom.results result hresult
  refine ⟨trackLessons, hstart, round, hround, text, rfl, ?_⟩
  have hcue : cue round.prompt = round.prompt := if_neg (prompt_ne_empty hround)
  intro graded again
  have hmatched : ∀ x : StarSection, x.name ∈ again.missingSections ↔
      ¬ (x ≠ .action ∨ testAny actionPhrases (ctx.toLowerCase (ctx.toLowerCase round.prompt)) =
        true ∨ actsByItself ctx.toLowerCase graded.missingSections ctx.role = true ∨
          0 < again.keywordHits.action) := by
    intro x
    have hx := sectionMatched_suggestion hlower round.prompt graded.missingSections ctx.role
      round.rubric x
    rw [hcue] at hx
    rw [name_mem_missingSections, ← Bool.not_eq_true]
    exact not_congr hx
  constructor
  · intro name hname
    obtain ⟨x, rfl, -⟩ := mem_unmatched.mp hname
    have hx : ¬ (x ≠ .action) := fun hne => (hmatched x).mp hname (.inl hne)
    rw [not_not.mp hx]
    rfl
  · have hcontains : graded.missingSections.contains "action" = true ↔
        "action" ∈ graded.missingSections := List.contains_iff_mem
    have haction : "action" ∈ again.missingSections ↔ _ := hmatched .action
    rw [haction]
    simp only [actsByItself, Bool.and_eq_true, Bool.not_eq_true', ne_eq, not_true_eq_false,
      false_or, not_or, not_and_or, Bool.not_eq_true, Bool.not_eq_false, hcontains]
    rw [or_comm (a := "action" ∈ graded.missingSections), Nat.pos_iff_ne_zero, not_not,
      and_comm (a := again.keywordHits.action = 0)]

/-- A product manager answers a round, and the suggestion misses the action at most. -/
theorem product_suggestion_graded :
    let ctx : ScreenContext := ⟨plainPlatform.toLowerCase, some "Product Manager"⟩
    let lesson : LessonResponse :=
      { introduceYourself with
        createdBy := "system", createdAt := 0, completed := false, score := none }
    let events : List SimulationEvent :=
      [.start ⟨[lesson], List.nodup_singleton _⟩, .type "I led a team", .submit, .submitted 0]
    ∃ result ∈ (run (SimulationState.step ctx) initialSimulation events).simulationResults,
      ∃ round text, result = SimulationState.roundResult ctx round text result.timedOut ∧
        ∀ name ∈ (evaluateStarResponse ctx.toLowerCase result.suggestedAnswer
          round.rubric).missingSections, name = "action" := by
  intro ctx lesson events
  have hrecorded :
      (run (SimulationState.step ctx) initialSimulation events).simulationResults ≠ [] := by
    decide +kernel
  obtain ⟨result, hresult⟩ := List.exists_mem_of_ne_nil _ hrecorded
  obtain ⟨-, -, round, -, text, hgraded, hmissing, -⟩ :=
    suggestions_graded ctx plain_lowersAcross events result hresult
  exact ⟨result, hresult, round, text, hgraded, hmissing⟩

end LanguageGuru
