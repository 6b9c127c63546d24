import LanguageGuru.Backend.MongoStore
import LanguageGuru.Backend.PlainPlatform

/-!
# Lesson filters

The query parser yields strings, lists and nested objects, and the learning route passes them on as
filters. The memory store compares them with `!==`, so that a list or an object selects nothing.
MongoDB runs an object of operators as operators, and a list as `$in`.

## Main definitions

* `Filters.selects`: the meaning of the filters, equality with every truthy filter
* `Filters.Textual`, `Filters.Void`: every truthy filter is a string; the query selects nothing
* `operatorMongoose`: a MongoDB that runs operators

## Main results

* `memory_getLessons`: the memory store selects by equality
* `filters_select_by_equality_iff`: when both stores do
-/

namespace LanguageGuru

open Process

/-- The value is a string, and the field is that string. -/
def QueryValue.isField (field : Option String) : QueryValue → Bool
  | .str s => field = some s
  | .list _ => false
  | .obj _ => false

/-- A truthy filter is a string equal to the field. -/
def equalsField (filter : Option QueryValue) (field : Option String) : Bool :=
  filter.all fun v => !v.truthy || v.isField field

/-- Every truthy filter is a string equal to the field of the lesson. -/
def Filters.selects (f : Filters) (l : Lesson) : Bool :=
  equalsField f.trackId l.trackId && equalsField f.language (some l.language) &&
    equalsField f.level (some l.level)

/-! ## The memory store -/

theorem not_mismatch (filter : Option QueryValue) (field : Option String) :
    (!mismatch filter field) = equalsField filter field := by
  rcases filter with _ | v
  · rfl
  · cases v with
    | str s => simp [mismatch, equalsField, QueryValue.truthy, QueryValue.isField]
    | list xs => rfl
    | obj fields => rfl

/-- **The memory store selects by equality.** -/
theorem memory_getLessons (P : Platform) (f : Filters) (s : MemoryState) :
    (memoryStore P).answer (.getLessons f) s = .ok (s.lessons.filter f.selects) := by
  have hadmits : f.admits = f.selects := by
    funext l
    simp only [Filters.admits, Filters.selects, not_mismatch]
  rw [← hadmits]
  rfl

/-! ## MongoDB -/

section Mongo

variable {M : Mongoose} {P : Platform}

/-- The query with the filters selects a lesson. -/
def Mongoose.finds (M : Mongoose) (f : Filters) (l : Lesson) : Bool :=
  M.filterSelects f.trackId l.trackId && M.filterSelects f.language (some l.language) &&
    M.filterSelects f.level (some l.level)

/-- Every filter is cast. -/
def Mongoose.Casts (M : Mongoose) (f : Filters) : Prop :=
  M.filterError f.trackId = none ∧ M.filterError f.language = none ∧ M.filterError f.level = none

/-- MongoDB answers with the lessons that the query selects, unless a filter cannot be cast. -/
theorem mongo_getLessons {f : Filters} (h : M.Casts f) (t : MongoState) :
    (mongoStore P M).answer (.getLessons f) t =
      .ok (M.lessonOrder (t.lessons.filter (M.finds f))) := by
  obtain ⟨htrack, hlanguage, hlevel⟩ := h
  simp only [Service.answer, mongoStore, MongoState.perform, htrack, hlanguage, hlevel,
    Option.or_none]
  rfl

theorem mongo_getLessons_error {f : Filters} (h : ¬ M.Casts f) (t : MongoState) :
    ∃ e, (mongoStore P M).answer (.getLessons f) t = .error e := by
  have hsome : (M.filterError f.trackId).or
      ((M.filterError f.language).or (M.filterError f.level)) ≠ none := by
    simpa [Mongoose.Casts] using h
  obtain ⟨e, he⟩ := Option.ne_none_iff_exists'.mp hsome
  exact ⟨e, by simp only [Service.answer, mongoStore, MongoState.perform, he]⟩

/-- A filter that is absent or a string selects by equality. -/
theorem filterSelects_string {filter : Option QueryValue} (h : MongoState.IsString filter)
    (field : Option String) : M.filterSelects filter field = equalsField filter field := by
  rcases filter with _ | v
  · rfl
  · obtain ⟨s, rfl⟩ := h v rfl
    simp [Mongoose.filterSelects, equalsField, QueryValue.truthy, QueryValue.isField]

/-- A filter that is not a string equals no field. -/
theorem equalsField_of_not_isString {filter : Option QueryValue}
    (h : ¬ MongoState.IsString filter) (field : Option String) :
    equalsField filter field = false := by
  rcases filter with _ | v
  · exact absurd (fun _ hv => by cases hv) h
  · cases v with
    | str s => exact absurd (fun v hv => ⟨s, (Option.some.inj hv).symm⟩) h
    | list xs => rfl
    | obj fields => rfl

/-- Every truthy filter is a string. -/
def Filters.Textual (f : Filters) : Prop :=
  ∀ filter ∈ [f.trackId, f.language, f.level], ∀ v ∈ filter, v.truthy = true → ∃ s, v = .str s

/-- Every filter is cast, and the operators of one of them admit no value. -/
def Mongoose.Void (M : Mongoose) (f : Filters) : Prop :=
  M.Casts f ∧ ((∀ field, M.filterSelects f.trackId field = false) ∨
    (∀ s, M.filterSelects f.language (some s) = false) ∨
    ∀ s, M.filterSelects f.level (some s) = false)

/-- Only a string is falsy. -/
theorem isString_iff {filter : Option QueryValue} :
    MongoState.IsString filter ↔ ∀ v ∈ filter, v.truthy = true → ∃ s, v = .str s := by
  refine ⟨fun h v hv _ => h v hv, fun h v hv => ?_⟩
  cases v with
  | str s => exact ⟨s, rfl⟩
  | list xs => exact h _ hv rfl
  | obj fields => exact h _ hv rfl

theorem Filters.textual_iff {f : Filters} : f.Textual ↔ MongoState.IsString f.trackId ∧
    MongoState.IsString f.language ∧ MongoState.IsString f.level := by
  simp [Filters.Textual, isString_iff]

/-- Filters that are strings are cast and select by equality. -/
theorem Filters.Textual.finds {f : Filters} (h : f.Textual) :
    M.Casts f ∧ M.finds f = f.selects := by
  obtain ⟨htrack, hlanguage, hlevel⟩ := Filters.textual_iff.mp h
  refine ⟨⟨MongoState.filterError_eq_none htrack, MongoState.filterError_eq_none hlanguage,
    MongoState.filterError_eq_none hlevel⟩, ?_⟩
  funext l
  simp only [Mongoose.finds, Filters.selects, filterSelects_string htrack,
    filterSelects_string hlanguage, filterSelects_string hlevel]

/-- With a filter that is not a string no lesson is meant. -/
theorem Filters.selects_of_not_textual {f : Filters} (h : ¬ f.Textual) (l : Lesson) :
    f.selects l = false := by
  rw [Filters.textual_iff, not_and_or, not_and_or] at h
  rcases h with h | h | h
  all_goals simp [Filters.selects, equalsField_of_not_isString h]

/-- Filters whose query finds no lesson are void: a lesson can have any three fields. -/
theorem Mongoose.void_of_finds {f : Filters} (hcasts : M.Casts f)
    (hnone : ∀ l, M.finds f l = false) : M.Void f := by
  refine ⟨hcasts, ?_⟩
  -- otherwise each filter admits some value, and the lesson with the three values is found
  by_contra hsome
  simp only [not_or, not_forall, Bool.not_eq_false] at hsome
  obtain ⟨⟨trackId, htrack⟩, ⟨language, hlanguage⟩, ⟨level, hlevel⟩⟩ := hsome
  have hfound := hnone ⟨⟨"", trackId, none, "", "", language, level, 0, []⟩, "", 0⟩
  simp [Mongoose.finds, htrack, hlanguage, hlevel] at hfound

/-- The query of void filters finds nothing. -/
theorem Mongoose.Void.finds {f : Filters} (h : M.Void f) (l : Lesson) : M.finds f l = false := by
  rcases h.2 with h | h | h
  all_goals simp [Mongoose.finds, h]

end Mongo

/-- **Both stores select by equality alone if and only if every truthy filter is a string**, or the
query of the filters is void: what MongoDB makes of a list or of an object of operators is a query
of its own. -/
theorem filters_select_by_equality_iff (P : Platform) (M : Mongoose) (f : Filters) :
    (∀ (s : MemoryState) (t : MongoState), t.lessons = s.lessons →
      (memoryStore P).answer (.getLessons f) s = .ok (s.lessons.filter f.selects) ∧
        ∃ found, (mongoStore P M).answer (.getLessons f) t = .ok found ∧
          found.Perm (s.lessons.filter f.selects)) ↔
      f.Textual ∨ M.Void f := by
  constructor
  · intro h
    refine or_iff_not_imp_left.mpr fun htext => ?_
    -- one lesson is enough to see whether the query finds it
    have hlesson : ∀ l, M.Casts f ∧ M.finds f l = false := by
      intro l
      obtain ⟨-, found, hfound, hperm⟩ := h ⟨[], [l], []⟩ ⟨true, [], [l], []⟩ rfl
      -- a filter that cannot be cast is an error, and no answer
      have hcasts : M.Casts f := by
        by_contra hcasts
        obtain ⟨e, he⟩ := mongo_getLessons_error (P := P) hcasts ⟨true, [], [l], []⟩
        rw [he] at hfound
        cases hfound
      refine ⟨hcasts, ?_⟩
      rw [mongo_getLessons hcasts] at hfound
      obtain rfl := Except.ok.inj hfound
      -- equality selects nothing, so the query must not select the lesson either
      have hempty := ((M.lessonOrder_perm _).symm.trans hperm).length_eq
      by_contra hfinds
      simp [List.filter_cons, hfinds, Filters.selects_of_not_textual htext] at hempty
    exact Mongoose.void_of_finds (hlesson ⟨⟨"", none, none, "", "", "", "", 0, []⟩, "", 0⟩).1
      fun l => (hlesson l).2
  · intro h s t hst
    refine ⟨memory_getLessons P f s, ?_⟩
    have hfinds : M.Casts f ∧ t.lessons.filter (M.finds f) = s.lessons.filter f.selects := by
      rw [hst]
      by_cases htext : f.Textual
      · obtain ⟨hcasts, heq⟩ := htext.finds (M := M)
        rw [heq]
        exact ⟨hcasts, rfl⟩
      · have hvoid := h.resolve_left htext
        refine ⟨hvoid.1, List.filter_congr fun l _ => ?_⟩
        rw [hvoid.finds, Filters.selects_of_not_textual htext]
    rw [← hfinds.2]
    -- MongoDB may return them in another order
    exact ⟨_, mongo_getLessons hfinds.1 t, M.lessonOrder_perm _⟩

/-! ## A MongoDB that runs operators -/

/-- The string of a value. -/
def QueryValue.text? : QueryValue → Option String
  | .str s => some s
  | _ => none

/-- The strings of a list, when it has no other elements. -/
def QueryValue.texts? : QueryValue → Option (List String)
  | .list xs => xs.mapM QueryValue.text?
  | _ => none

/-- What an operator of a query demands of a field; nothing when the operator or its argument is
none that a string path takes. A missing field is not equal to any string. -/
def operator (name : String) (argument : QueryValue) : Option (Option String → Bool) :=
  match name with
  | "$eq" => argument.text?.map fun s field => field = some s
  | "$ne" => argument.text?.map fun s field => field ≠ some s
  | "$in" => argument.texts?.map fun ss field => ss.any fun s => field = some s
  | "$nin" => argument.texts?.map fun ss field => ss.all fun s => field ≠ some s
  | _ => none

/-- The demand of a query value: the operators of an object, all of them, or the elements of a
list. -/
def demand : QueryValue → Option (Option String → Bool)
  | .str s => some fun field => field = some s
  | .list xs => operator "$in" (.list xs)
  | .obj [] => none
  | .obj fields =>
    (fields.mapM fun f => operator f.1 f.2).map fun demands field => demands.all fun d => d field

/-- A MongoDB that runs objects of operators as operators and lists as `$in`, and returns documents
in the order of their insertion. -/
def operatorMongoose : Mongoose where
  isObjectId s := s.toList.length = 24
  castError v :=
    if (demand v).isSome then none else some (.rejected "Cast to string failed")
  selects v field := (demand v).any fun d => d field
  lessonOrder := id
  progressOrder := id
  lessonOrder_perm := List.Perm.refl
  progressOrder_perm := List.Perm.refl

/-- The filter of the query string `?trackId[$ne]=x`. -/
def notX : Filters := { trackId := some (.obj [("$ne", .str "x")]) }

/-- A lesson of another track. -/
def lessonOfY : Lesson := ⟨⟨"l", some "y", none, "", "", "", "", 0, []⟩, "", 0⟩

/-- With `?trackId[$ne]=x`, MongoDB finds the lessons of all other tracks. -/
theorem operator_filter_selects_more :
    ¬ ∀ (s : MemoryState) (t : MongoState), t.lessons = s.lessons →
      (memoryStore plainPlatform).answer (.getLessons notX) s =
          .ok (s.lessons.filter notX.selects) ∧
        ∃ found, (mongoStore plainPlatform operatorMongoose).answer (.getLessons notX) t =
            .ok found ∧ found.Perm (s.lessons.filter notX.selects) := by
  intro h
  obtain ⟨-, found, hfound, hperm⟩ := h ⟨[], [lessonOfY], []⟩ ⟨true, [], [lessonOfY], []⟩ rfl
  have hanswer : (mongoStore plainPlatform operatorMongoose).answer (.getLessons notX)
      ⟨true, [], [lessonOfY], []⟩ = .ok [lessonOfY] := by decide
  rw [hanswer] at hfound
  obtain rfl := Except.ok.inj hfound
  exact absurd hperm.length_eq (by decide)

end LanguageGuru
