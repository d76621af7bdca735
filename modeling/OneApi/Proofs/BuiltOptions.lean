import Mathlib.Data.List.Basic
import Mathlib.Data.List.Induction
import OneApi.Options

/-! Options that are built step by step. However the steps are mixed, the options hold the filters in
the order of their steps and the value of the last step of each other kind. What the query says,
whether it says anything, and what the pages of a walk ask for are therefore known from the
steps. -/

namespace OneApi.Options

namespace Step

def filter? : Step → Option Filter
  | filter f => some f
  | _ => none

def sort? : Step → Option SortKey
  | sort k => some k
  | _ => none

def limit? : Step → Option UInt32
  | limit n => some n
  | _ => none

def page? : Step → Option UInt32
  | page n => some n
  | _ => none

def offset? : Step → Option UInt32
  | offset n => some n
  | _ => none

end Step

/-- The value of the last step that gives one. -/
def last? {α : Type} (value? : Step → Option α) (steps : List Step) : Option α :=
  (steps.filterMap value?).getLast?

/-- Options that hold what a sequence of steps says, and nothing else. -/
structure Holds (o : Options) (steps : List Step) : Prop where
  filters : o.filters = steps.filterMap Step.filter?
  sort : o.sort = last? Step.sort? steps
  limit : o.limit = last? Step.limit? steps
  page : o.page = last? Step.page? steps
  offset : o.offset = last? Step.offset? steps

/-- Two sequences with the same filters in the same order, and the same last values. -/
structure Agree (steps others : List Step) : Prop where
  filters : steps.filterMap Step.filter? = others.filterMap Step.filter?
  sort : last? Step.sort? steps = last? Step.sort? others
  limit : last? Step.limit? steps = last? Step.limit? others
  page : last? Step.page? steps = last? Step.page? others
  offset : last? Step.offset? steps = last? Step.offset? others

/-- The parts of the query that a sequence of steps asks for, in the order of the query. -/
def askedFragments (steps : List Step) : List (List Char) :=
  (steps.filterMap Step.filter?).map Filter.fragment ++
    (last? Step.sort? steps).toList.map
      (fun k => "sort=".toList ++ k.field.toList ++ ':' :: k.direction.name.toList) ++
    (last? Step.limit? steps).toList.map (fun n => "limit=".toList ++ Text.decimal n.toNat) ++
    (last? Step.page? steps).toList.map (fun n => "page=".toList ++ Text.decimal n.toNat) ++
    (last? Step.offset? steps).toList.map (fun n => "offset=".toList ++ Text.decimal n.toNat)

/-! ## Steps -/

section

variable {α : Type} {value? : Step → Option α}

theorem last?_concat (value? : Step → Option α) (steps : List Step) (step : Step) :
    last? value? (steps ++ [step]) = (value? step <|> last? value? steps) := by
  unfold last?
  rw [List.filterMap_append]
  cases h : value? step with
  | none => simp [h]
  | some a => simp [h]

/-- Steps without a value can be left out. -/
theorem filterMap_filter_of_none {keep : Step → Bool}
    (h : ∀ step, keep step = false → value? step = none) (steps : List Step) :
    (steps.filter keep).filterMap value? = steps.filterMap value? := by
  rw [List.filterMap_filter]
  congr 1
  funext step
  cases hkeep : keep step with
  | true => rfl
  | false => exact (h step hkeep).symm

end

variable {o p : Options} {steps others : List Step}

theorem Holds.apply (h : o.Holds steps) (step : Step) : (o.apply step).Holds (steps ++ [step]) := by
  refine ⟨?_, ?_, ?_, ?_, ?_⟩
  · rw [List.filterMap_append, ← h.filters]
    cases step with
    | filter f => rfl
    | _ => exact (List.append_nil o.filters).symm
  · rw [last?_concat, ← h.sort]
    cases step <;> rfl
  · rw [last?_concat, ← h.limit]
    cases step <;> rfl
  · rw [last?_concat, ← h.page]
    cases step <;> rfl
  · rw [last?_concat, ← h.offset]
    cases step <;> rfl

theorem ofSteps_concat (steps : List Step) (step : Step) :
    ofSteps (steps ++ [step]) = (ofSteps steps).apply step := by
  rw [ofSteps, List.foldl_append]
  rfl

theorem holds_ofSteps (steps : List Step) : (ofSteps steps).Holds steps := by
  induction steps using List.reverseRecOn with
  | nil => exact ⟨rfl, rfl, rfl, rfl, rfl⟩
  | append_singleton steps step ih =>
    rw [ofSteps_concat]
    exact ih.apply step

/-- Options are known from what they hold. -/
theorem Holds.eq (h : o.Holds steps) (hp : p.Holds others) (hagree : Agree steps others) :
    o = p := by
  obtain ⟨filters, sort, limit, page, offset⟩ := o
  obtain ⟨hfilters, hsort, hlimit, hpage, hoffset⟩ := h
  obtain ⟨pfilters, psort, plimit, ppage, poffset⟩ := hp
  dsimp only at *
  rw [hfilters, hsort, hlimit, hpage, hoffset, hagree.filters, hagree.sort, hagree.limit,
    hagree.page, hagree.offset, ← pfilters, ← psort, ← plimit, ← ppage, ← poffset]

theorem Holds.isEmpty_iff (h : o.Holds steps) : o.isEmpty = true ↔ steps = [] := by
  obtain ⟨hfilters, hsort, hlimit, hpage, hoffset⟩ := h
  rcases List.eq_nil_or_concat' steps with rfl | ⟨before, step, rfl⟩
  · simp [isEmpty, hfilters, hsort, hlimit, hpage, hoffset, last?]
  · rw [last?_concat] at hsort hlimit hpage hoffset
    have hfull : o.isEmpty = false := by
      cases step with
      | filter f => simp [isEmpty, hfilters, Step.filter?]
      | sort k => simp [isEmpty, hsort, Step.sort?]
      | limit n => simp [isEmpty, hlimit, Step.limit?]
      | page n => simp [isEmpty, hpage, Step.page?]
      | offset n => simp [isEmpty, hoffset, Step.offset?]
    simp [hfull]

theorem Holds.fragments_eq_asked (h : o.Holds steps) : o.fragments = askedFragments steps := by
  have hparameter (name : String) (n : Option UInt32) : parameter name n =
      n.toList.map fun n => name.toList ++ '=' :: Text.decimal n.toNat := by
    cases n <;> rfl
  rw [fragments, askedFragments, ← h.filters, ← h.sort, ← h.limit, ← h.page, ← h.offset, hparameter,
    hparameter, hparameter]
  simp [SortKey.text]

theorem Holds.forPage (h : o.Holds steps) (n : UInt32) :
    (o.forPage n).Holds (steps.filter (·.offset?.isNone) ++ [.page n]) := by
  -- only steps that set the offset go, so all other values stay
  have hkept {α : Type} {value? : Step → Option α} (hvalue : ∀ n, value? (.offset n) = none) :
      (steps.filter (·.offset?.isNone)).filterMap value? = steps.filterMap value? := by
    refine filterMap_filter_of_none ?_ steps
    intro step hstep
    cases step with
    | offset n => exact hvalue n
    | _ => cases hstep
  refine ⟨?_, ?_, ?_, ?_, ?_⟩
  · rw [List.filterMap_append, hkept (fun _ => rfl), ← h.filters]
    exact (List.append_nil o.filters).symm
  · rw [last?_concat, last?, hkept (fun _ => rfl)]
    exact h.sort
  · rw [last?_concat, last?, hkept (fun _ => rfl)]
    exact h.limit
  · rw [last?_concat]
    rfl
  · have hnone : (steps.filter (·.offset?.isNone)).filterMap Step.offset? = [] := by
      rw [List.filterMap_eq_nil_iff]
      intro step hstep
      exact Option.isNone_iff_eq_none.mp (List.mem_filter.mp hstep).2
    rw [last?_concat, last?, hnone]
    rfl

/-- **Options depend on the filters in order and on the last value of every other kind of step.**
They hold exactly these; sequences that agree on them build the same options with the same query;
the options are empty only without steps; the query joins the fragments in its own order; and the
options of a page are built without the steps that set an offset, and with the page at the end. -/
theorem steps_build_options (steps : List Step) :
    (ofSteps steps).Holds steps ∧
    (∀ others, Agree steps others →
      ofSteps steps = ofSteps others ∧ (ofSteps steps).query = (ofSteps others).query) ∧
    ((ofSteps steps).isEmpty = true ↔ steps = []) ∧
    (ofSteps steps).query = List.intercalate ['&'] (askedFragments steps) ∧
    ∀ n, (ofSteps steps).forPage n = ofSteps (steps.filter (·.offset?.isNone) ++ [.page n]) := by
  have hholds := holds_ofSteps steps
  refine ⟨hholds, ?_, hholds.isEmpty_iff, ?_, ?_⟩
  · intro others hagree
    have heq := hholds.eq (holds_ofSteps others) hagree
    exact ⟨heq, congrArg query heq⟩
  · rw [query, hholds.fragments_eq_asked]
  · intro n
    exact (hholds.forPage n).eq (holds_ofSteps _) ⟨rfl, rfl, rfl, rfl, rfl⟩

end OneApi.Options
