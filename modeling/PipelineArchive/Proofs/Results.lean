import PipelineArchive.Backend
import Mathlib.Data.List.Forall2

/-!
# Computations that succeed

What it means for a composed computation that it succeeds: `bind_eq_ok_iff` peels off the
first part, `map_eq_ok_iff` what is done to the result, `mapM_eq_ok_iff` and `ofFnM_eq_ok_iff`
speak about every element and every backend. The value that is found last under a key is one of
those with the key (`mem_of_lookup_reverse`).
-/

set_option autoImplicit false

namespace PipelineArchive.Results

variable {ε α β : Type}

theorem exists_ok_of_isOk {e : Except ε α} (h : e.isOk = true) : ∃ value, e = .ok value := by
  cases e with
  | error reason => cases h
  | ok value => exact ⟨value, rfl⟩

theorem bind_eq_ok_iff {e : Except ε α} {next : α → Except ε β} {result : β} :
    (e >>= next) = .ok result ↔ ∃ value, e = .ok value ∧ next value = .ok result := by
  cases e with
  | error reason =>
    constructor
    · intro h
      cases h
    · rintro ⟨value, h, -⟩
      cases h
  | ok value =>
    constructor
    · exact fun h => ⟨value, rfl, h⟩
    · rintro ⟨other, hvalue, hnext⟩
      cases hvalue
      exact hnext

/-- A computation goes on from the value that its first part gives. -/
theorem exists_bind_eq_ok {e : Except ε α} {next : α → Except ε β} {value : α} (h : e = .ok value)
    (hnext : ∃ result, next value = .ok result) : ∃ result, (e >>= next) = .ok result := by
  obtain ⟨result, hresult⟩ := hnext
  exact ⟨result, bind_eq_ok_iff.2 ⟨value, h, hresult⟩⟩

theorem map_eq_ok_iff {e : Except ε α} {f : α → β} {result : β} :
    e.map f = .ok result ↔ ∃ value, e = .ok value ∧ f value = result := by
  cases e with
  | error reason =>
    constructor
    · intro h
      cases h
    · rintro ⟨value, h, -⟩
      cases h
  | ok value =>
    constructor
    · intro h
      exact ⟨value, rfl, Except.ok.inj h⟩
    · rintro ⟨other, hvalue, rfl⟩
      cases hvalue
      rfl

theorem mapError_eq_ok_iff {ε' : Type} {e : Except ε α} {f : ε → ε'} {result : α} :
    e.mapError f = .ok result ↔ e = .ok result := by
  cases e with
  | error reason =>
    constructor
    · intro h
      cases h
    · intro h
      cases h
  | ok value =>
    constructor
    · intro h
      cases h
      rfl
    · intro h
      cases h
      rfl

theorem mapM_eq_ok_iff {f : α → Except ε β} {xs : List α} {ys : List β} :
    xs.mapM f = .ok ys ↔ List.Forall₂ (fun x y => f x = .ok y) xs ys := by
  induction xs generalizing ys with
  | nil =>
    rw [List.mapM_nil, List.forall₂_nil_left_iff]
    constructor
    · intro h
      cases h
      rfl
    · rintro rfl
      rfl
  | cons x rest ih =>
    rw [List.mapM_cons, bind_eq_ok_iff, List.forall₂_cons_left_iff]
    constructor
    · rintro ⟨y, hy, h⟩
      obtain ⟨others, hothers, h⟩ := bind_eq_ok_iff.1 h
      cases h
      exact ⟨y, others, hy, ih.1 hothers, rfl⟩
    · rintro ⟨y, others, hy, hothers, rfl⟩
      exact ⟨y, hy, bind_eq_ok_iff.2 ⟨others, ih.2 hothers, rfl⟩⟩

/-- An element of a list is related to the one in its place of a related list. -/
theorem forall₂_getElem? {R : α → β → Prop} {xs : List α} {ys : List β} {i : Nat} {x : α}
    (h : List.Forall₂ R xs ys) (hx : xs[i]? = some x) : ∃ y, ys[i]? = some y ∧ R x y := by
  induction h generalizing i with
  | nil => cases hx
  | cons hxy _ ih =>
    cases i with
    | zero =>
      injection hx with hx
      subst hx
      exact ⟨_, rfl, hxy⟩
    | succ i => exact ih hx

/-- An element of a list is related to one of a related list. -/
theorem exists_of_mem_left {R : α → β → Prop} {xs : List α} {ys : List β} {x : α}
    (h : List.Forall₂ R xs ys) (hx : x ∈ xs) : ∃ y ∈ ys, R x y := by
  obtain ⟨i, hi⟩ := List.getElem?_of_mem hx
  obtain ⟨y, hy, hxy⟩ := forall₂_getElem? h hi
  exact ⟨y, List.mem_of_getElem? hy, hxy⟩

/-- An element of a related list is related to one of the list. -/
theorem exists_of_mem_right {R : α → β → Prop} {xs : List α} {ys : List β} {y : β}
    (h : List.Forall₂ R xs ys) (hy : y ∈ ys) : ∃ x ∈ xs, R x y := by
  exact exists_of_mem_left h.flip hy

/-- Lists that are related element by element are equal if the elements are. -/
theorem eq_of_forall₂ {R : α → α → Prop} {xs ys : List α} (h : List.Forall₂ R xs ys)
    (heq : ∀ x ∈ xs, ∀ y, R x y → y = x) : ys = xs := by
  induction h with
  | nil => rfl
  | cons hxy _ ih =>
    obtain ⟨hx, hrest⟩ := List.forall_mem_cons.1 heq
    rw [hx _ hxy, ih hrest]

/-- Elements that are all related to something make up a list that is related to one. -/
theorem exists_forall₂ {R : α → β → Prop} {xs : List α} (h : ∀ x ∈ xs, ∃ y, R x y) :
    ∃ ys, List.Forall₂ R xs ys := by
  induction xs with
  | nil => exact ⟨[], .nil⟩
  | cons x rest ih =>
    obtain ⟨y, hy⟩ := h x List.mem_cons_self
    obtain ⟨others, hothers⟩ := ih fun other hother => h other (List.mem_cons_of_mem _ hother)
    exact ⟨y :: others, .cons hy hothers⟩

/-- A computation that succeeds for every element gives a list of results. -/
theorem exists_mapM {f : α → Except ε β} {xs : List α} (h : ∀ x ∈ xs, ∃ y, f x = .ok y) :
    ∃ ys, xs.mapM f = .ok ys := by
  obtain ⟨ys, hys⟩ := exists_forall₂ h
  exact ⟨ys, mapM_eq_ok_iff.2 hys⟩

theorem forM_eq_ok_iff {f : α → Except ε Unit} {xs : List α} :
    xs.forM f = .ok () ↔ ∀ x ∈ xs, f x = .ok () := by
  induction xs with
  | nil => exact ⟨fun _ x hx => (by cases hx), fun _ => rfl⟩
  | cons x rest ih =>
    show (f x >>= fun _ => rest.forM f) = _ ↔ _
    rw [bind_eq_ok_iff, List.forall_mem_cons, ← ih]
    exact ⟨fun ⟨_, hx, h⟩ => ⟨hx, h⟩, fun ⟨hx, h⟩ => ⟨⟨⟩, hx, h⟩⟩

/-- What holds at the start and is kept by every step of a fold holds at its end. It may speak of
the elements that were seen. -/
theorem foldlM_invariant {f : β → α → Except ε β} (holds : List α → β → Prop)
    (hstep : ∀ seen x value next, holds seen value → f value x = .ok next →
      holds (seen ++ [x]) next)
    {xs : List α} {start result : β} (hstart : holds [] start)
    (h : xs.foldlM f start = .ok result) : holds xs result := by
  -- the elements already seen are general, for they grow from step to step
  have hfrom : ∀ seen value, holds seen value → xs.foldlM f value = .ok result →
      holds (seen ++ xs) result := by
    clear hstart h
    induction xs with
    | nil =>
      intro seen value hvalue h
      cases h
      rwa [List.append_nil]
    | cons x rest ih =>
      intro seen value hvalue h
      rw [List.foldlM_cons] at h
      obtain ⟨next, hnext, h⟩ := bind_eq_ok_iff.1 h
      rw [List.append_cons]
      exact ih (seen ++ [x]) next (hstep seen x value next hvalue hnext) h
  exact hfrom [] start hstart h

theorem ofFnM_eq_ok_iff {f : Backend → Except ε α} {p : PerBackend α} :
    PerBackend.ofFnM f = .ok p ↔ ∀ b, f b = .ok (p.get b) := by
  constructor
  · intro h
    -- the computation is a chain of binds, one for each backend
    obtain ⟨x₀, h₀, h⟩ := bind_eq_ok_iff.1 h
    obtain ⟨x₁, h₁, h⟩ := bind_eq_ok_iff.1 h
    obtain ⟨x₂, h₂, h⟩ := bind_eq_ok_iff.1 h
    obtain ⟨x₃, h₃, h⟩ := bind_eq_ok_iff.1 h
    obtain ⟨x₄, h₄, h⟩ := bind_eq_ok_iff.1 h
    obtain ⟨x₅, h₅, h⟩ := bind_eq_ok_iff.1 h
    obtain ⟨x₆, h₆, h⟩ := bind_eq_ok_iff.1 h
    cases h
    intro b
    cases b <;> assumption
  · intro h
    exact bind_eq_ok_iff.2 ⟨_, h .d3d11, bind_eq_ok_iff.2 ⟨_, h .d3d12, bind_eq_ok_iff.2 ⟨_, h .gl,
      bind_eq_ok_iff.2 ⟨_, h .gles, bind_eq_ok_iff.2 ⟨_, h .vulkan, bind_eq_ok_iff.2
        ⟨_, h .metalMacos, bind_eq_ok_iff.2 ⟨_, h .metalIos, rfl⟩⟩⟩⟩⟩⟩⟩

/-- A computation that succeeds on every backend gives a value for every backend. -/
theorem exists_ofFnM {f : Backend → Except ε α} (h : ∀ b, ∃ value, f b = .ok value) :
    ∃ p : PerBackend α, PerBackend.ofFnM f = .ok p := by
  choose value hvalue using h
  exact ⟨.ofFn value, ofFnM_eq_ok_iff.2 fun b => by rw [hvalue, PerBackend.get_ofFn]⟩

/-- A computation on a value that may be absent gives a value where there is one. -/
theorem option_mapM_eq_ok_iff {f : α → Except ε β} {x : Option α} {y : Option β} :
    x.mapM f = .ok y ↔
      (x = none ∧ y = none) ∨ ∃ x' y', x = some x' ∧ y = some y' ∧ f x' = .ok y' := by
  cases x with
  | none =>
    constructor
    · intro h
      cases h
      exact .inl ⟨rfl, rfl⟩
    · rintro (⟨-, rfl⟩ | ⟨_, _, h, -⟩)
      · rfl
      · cases h
  | some x =>
    rw [Option.mapM_some]
    constructor
    · intro h
      cases hx : f x with
      | error reason =>
        rw [hx] at h
        cases h
      | ok value =>
        rw [hx] at h
        cases h
        exact .inr ⟨x, value, rfl, rfl, hx⟩
    · rintro (⟨h, -⟩ | ⟨x', y', hx', rfl, hy'⟩)
      · cases h
      · injection hx' with hx'
        subst hx'
        rw [hy']
        rfl

/-! ## Values by key -/

theorem mem_of_lookup_reverse [DecidableEq α] {key : α} {pairs : List (α × β)} {value : β}
    (h : pairs.reverse.lookup key = some value) : (key, value) ∈ pairs := by
  obtain ⟨before, after, hpairs, -⟩ := List.lookup_eq_some_iff.1 h
  rw [← List.mem_reverse, hpairs]
  exact List.mem_append_right before List.mem_cons_self

theorem exists_lookup_reverse [DecidableEq α] {pair : α × β} {pairs : List (α × β)}
    (h : pair ∈ pairs) : ∃ value, pairs.reverse.lookup pair.1 = some value :=
  Option.isSome_iff_exists.1
    (List.lookup_isSome_iff.2 ⟨pair, List.mem_reverse.2 h, beq_self_eq_true _⟩)

end PipelineArchive.Results
