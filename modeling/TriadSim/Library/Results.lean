import Mathlib.Data.List.Forall2
import Mathlib.Tactic

/-!
# Fallible computations

Inversion rules for `Except`: what it takes for a sequence of fallible steps to
succeed.
-/

namespace TriadSim
namespace Library

variable {ε α β : Type}

variable {first : Except ε α} {inputs : List α} {outputs : List β} {R : α → β → Prop}

/-- A sequence of two steps succeeds when both do. -/
theorem bind_eq_ok_iff {next : α → Except ε β} {result : β} :
    first >>= next = .ok result ↔ ∃ value, first = .ok value ∧ next value = .ok result := by
  cases first with
  | error err | ok value => simp [bind, Except.bind]

theorem map_eq_ok_iff {f : α → β} {result : β} :
    first.map f = .ok result ↔ ∃ value, first = .ok value ∧ f value = result := by
  cases first with
  | error err | ok value => simp [Except.map]

theorem mapError_eq_ok_iff {ε' : Type} {f : ε → ε'} {result : Except ε α} {value : α} :
    result.mapError f = .ok value ↔ result = .ok value := by
  cases result <;> simp [Except.mapError]

/-- A list of fallible steps succeeds when every one does. -/
theorem mapM_eq_ok_iff {f : α → Except ε β} :
    inputs.mapM f = .ok outputs ↔
      List.Forall₂ (fun input output => f input = .ok output) inputs outputs := by
  induction inputs generalizing outputs with
  | nil =>
    rw [List.mapM_nil, List.forall₂_nil_left_iff]
    constructor
    · intro hOk
      cases hOk
      rfl
    · rintro rfl
      rfl
  | cons input inputs ih =>
    rw [List.mapM_cons, bind_eq_ok_iff, List.forall₂_cons_left_iff]
    simp only [bind_eq_ok_iff, ih]
    constructor
    · rintro ⟨output, hOutput, rest, hRest, hResult⟩
      cases hResult
      exact ⟨output, rest, hOutput, hRest, rfl⟩
    · rintro ⟨output, rest, hOutput, hRest, rfl⟩
      exact ⟨output, hOutput, rest, hRest, rfl⟩

/-- A list of fallible steps that all succeed, with what is known about each of them. -/
theorem exists_mapM_eq_ok {f : α → Except ε β}
    (hSteps : ∀ input ∈ inputs, ∃ output, f input = .ok output ∧ R input output) :
    ∃ outputs, inputs.mapM f = .ok outputs ∧
      List.Forall₂ (fun input output => f input = .ok output ∧ R input output) inputs outputs := by
  induction inputs with
  | nil => exact ⟨[], rfl, List.Forall₂.nil⟩
  | cons input inputs ih =>
    obtain ⟨output, hOutput⟩ := hSteps input List.mem_cons_self
    obtain ⟨rest, _, hRest⟩ := ih fun other hOther =>
      hSteps other (List.mem_cons_of_mem input hOther)
    have hAll : List.Forall₂ (fun input output => f input = .ok output ∧ R input output)
        (input :: inputs) (output :: rest) := .cons hOutput hRest
    exact ⟨output :: rest, mapM_eq_ok_iff.mpr (hAll.imp fun _ _ hBoth => hBoth.1), hAll⟩

/-- What holds at the start of a fallible fold and is kept by each of its steps, from the
inputs done to those and the next, holds of its result. -/
theorem foldlM_induction {step : α → β → Except ε α} {I : List β → α → Prop} {inputs : List β}
    {start result : α} (hStart : I [] start)
    (hStep : ∀ done input state next, done ++ [input] <+: inputs → I done state →
      step state input = .ok next → I (done ++ [input]) next)
    (hFold : inputs.foldlM step start = .ok result) : I inputs result := by
  suffices hRest : ∀ done rest state, done ++ rest = inputs → I done state →
      rest.foldlM step state = .ok result → I inputs result from
    hRest [] inputs start rfl hStart hFold
  intro done rest
  induction rest generalizing done with
  | nil =>
    rintro state rfl hState hDone
    cases hDone
    rw [List.append_nil]
    exact hState
  | cons input rest ih =>
    intro state hInputs hState hMore
    rw [List.foldlM_cons, bind_eq_ok_iff] at hMore
    obtain ⟨next, hNext, hMore⟩ := hMore
    refine ih (done ++ [input]) next (by simpa using hInputs) ?_ hMore
    exact hStep done input state next ⟨rest, by simpa using hInputs⟩ hState hNext

/-- A relation with an appended list splits with it. -/
theorem forall₂_append_left {first second : List α}
    (hAll : List.Forall₂ R (first ++ second) outputs) :
    ∃ left right, List.Forall₂ R first left ∧ List.Forall₂ R second right ∧
      outputs = left ++ right := by
  induction first generalizing outputs with
  | nil => exact ⟨[], outputs, .nil, hAll, rfl⟩
  | cons input first ih =>
    rw [List.cons_append, List.forall₂_cons_left_iff] at hAll
    obtain ⟨output, rest, hOutput, hRest, rfl⟩ := hAll
    obtain ⟨left, right, hLeft, hRight, rfl⟩ := ih hRest
    exact ⟨output :: left, right, .cons hOutput hLeft, hRight, rfl⟩

theorem forall₂_comp {γ : Type} {S : β → γ → Prop} {middle : List β} {outputs : List γ}
    (hFirst : List.Forall₂ R inputs middle) (hSecond : List.Forall₂ S middle outputs) :
    List.Forall₂ (fun input output => ∃ between, R input between ∧ S between output)
      inputs outputs := by
  induction hFirst generalizing outputs with
  | nil =>
    rw [List.forall₂_nil_left_iff] at hSecond
    rw [hSecond]
    exact .nil
  | cons hHead _ ih =>
    rw [List.forall₂_cons_left_iff] at hSecond
    obtain ⟨output, others, hOutput, hOthers, rfl⟩ := hSecond
    exact .cons ⟨_, hHead, hOutput⟩ (ih hOthers)

theorem exists_of_mem_right (hAll : List.Forall₂ R inputs outputs) {output : β}
    (hMem : output ∈ outputs) :
    ∃ input ∈ inputs, R input output := by
  induction hAll with
  | nil => cases hMem
  | @cons input first inputs outputs hHead hTail ih =>
    rcases List.mem_cons.mp hMem with rfl | hRest
    · exact ⟨input, List.mem_cons_self, hHead⟩
    · obtain ⟨found, hFound, hRelated⟩ := ih hRest
      exact ⟨found, List.mem_cons_of_mem _ hFound, hRelated⟩

theorem exists_eq_ok_of_isOk {result : Except ε α} (hOk : result.isOk = true) :
    ∃ value, result = .ok value := by
  cases result with
  | error err => cases hOk
  | ok value => exact ⟨value, rfl⟩

/-! ## Agreement through a view -/

variable {γ δ : Type}

/-- Two results agree through a view: both fail, or both succeed with values that
look the same. -/
def AgreeVia (view : α → γ) (first second : Except ε α) : Prop :=
  first.toOption.map view = second.toOption.map view

namespace AgreeVia

variable {view : α → γ}

theorem ok {first second : α} (hView : view first = view second) :
    AgreeVia view (.ok first : Except ε α) (.ok second) :=
  congrArg some hView

theorem error (view : α → γ) (first second : ε) :
    AgreeVia view (.error first : Except ε α) (.error second) :=
  rfl

/-- Either both results are values with the same view, or both are errors. -/
theorem cases {first second : Except ε α} (hAgree : AgreeVia view first second) :
    (∃ left right, first = .ok left ∧ second = .ok right ∧ view left = view right) ∨
      ∃ left right, first = .error left ∧ second = .error right := by
  cases first with
  | error left =>
    cases second with
    | error right => exact Or.inr ⟨left, right, rfl, rfl⟩
    | ok right => cases hAgree
  | ok left =>
    cases second with
    | error right => cases hAgree
    | ok right => exact Or.inl ⟨left, right, rfl, rfl, Option.some.inj hAgree⟩

theorem map {view' : β → δ} {first second : Except ε α} {f g : α → β}
    (hAgree : AgreeVia view first second)
    (hMap : ∀ left right, view left = view right → view' (f left) = view' (g right)) :
    AgreeVia view' (first.map f) (second.map g) := by
  rcases hAgree.cases with ⟨left, right, rfl, rfl, hView⟩ | ⟨left, right, rfl, rfl⟩
  · exact ok (hMap left right hView)
  · exact error view' left right

theorem mapM {input : Type} {f g : input → Except ε α} {inputs inputs' : List input}
    {related : input → input → Prop} (hInputs : List.Forall₂ related inputs inputs')
    (hStep : ∀ entry entry', related entry entry' → AgreeVia view (f entry) (g entry')) :
    AgreeVia (List.map view) (inputs.mapM f) (inputs'.mapM g) := by
  induction hInputs with
  | nil => exact ok rfl
  | cons hHead _ ih =>
    rw [List.mapM_cons, List.mapM_cons]
    rcases (hStep _ _ hHead).cases with
      ⟨left, right, hLeft, hRight, hView⟩ | ⟨left, right, hLeft, hRight⟩
    · rw [hLeft, hRight]
      refine ih.map (f := fun rest => left :: rest) (g := fun rest => right :: rest) ?_
      intro rest rest' hRest
      rw [List.map_cons, List.map_cons, hView, hRest]
    · rw [hLeft, hRight]
      exact error (List.map view) left right

theorem foldlM {input : Type} {step step' : α → input → Except ε α} {inputs inputs' : List input}
    {related : input → input → Prop} (hInputs : List.Forall₂ related inputs inputs')
    (hStep : ∀ left right entry entry', view left = view right → related entry entry' →
      AgreeVia view (step left entry) (step' right entry')) {first second : α}
    (hStart : view first = view second) :
    AgreeVia view (inputs.foldlM step first) (inputs'.foldlM step' second) := by
  induction hInputs generalizing first second with
  | nil => exact ok hStart
  | cons hHead _ ih =>
    rw [List.foldlM_cons, List.foldlM_cons]
    rcases (hStep first second _ _ hStart hHead).cases with
      ⟨left, right, hLeft, hRight, hView⟩ | ⟨left, right, hLeft, hRight⟩
    · rw [hLeft, hRight]
      exact ih hView
    · rw [hLeft, hRight]
      exact error view left right

end AgreeVia

end Library
end TriadSim
