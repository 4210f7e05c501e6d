import Mathlib.Data.List.Forall2
import Mathlib.Data.Multiset.MapFold

/-!
Programs that may raise, and their loops. `extend` is the loop that extends a
result by what each round returns, `firstThat` the one that stops at the first
hit. `Agree` is the rule for two runs of one program on related inputs: where
both return, what they return is related. A loop over the same elements in
another order agrees up to the order of its results.
-/
namespace ScanApi.Raising
variable {ε α β γ δ : Type}

/-- A sequence returns when both of its parts do. -/
theorem bind_ok {x : Except ε α} {f : α → Except ε β} {b : β} :
    x >>= f = .ok b ↔ ∃ a, x = .ok a ∧ f a = .ok b := by
  cases x <;> simp [bind, Except.bind]

/-- A raise comes from the first part, or from the second after the first returned. -/
theorem bind_error {x : Except ε α} {f : α → Except ε β} {e : ε} :
    x >>= f = .error e ↔ x = .error e ∨ ∃ a, x = .ok a ∧ f a = .error e := by
  cases x <;> simp [bind, Except.bind]

theorem ok_bind (a : α) (f : α → Except ε β) : (.ok a : Except ε α) >>= f = f a := rfl

/-- The second part matters only for what the first one returns. -/
theorem bind_congr_ok {x : Except ε α} {f g : α → Except ε β} (same : ∀ a, x = .ok a → f a = g a) :
    x >>= f = x >>= g := by
  cases x with
  | error e => rfl
  | ok a => exact same a rfl

@[simp] theorem pure_ok {a b : α} : (pure a : Except ε α) = .ok b ↔ a = b := by
  simp [pure, Except.pure]

theorem toOption_some {x : Except ε α} {a : α} : x.toOption = some a ↔ x = .ok a := by
  cases x <;> simp [Except.toOption]

/-! ### Loops -/

/-- `for a in l: result.extend(f(a))`. -/
def extend {m : Type → Type} [Monad m] (f : α → m (List β)) : List α → m (List β)
  | [] => pure []
  | a :: rest => do
    let first ← f a
    let others ← extend f rest
    return first ++ others

theorem extend_cons {m : Type → Type} [Monad m] (f : α → m (List β)) (a : α) (rest : List α) :
    extend f (a :: rest) = (do return (← f a) ++ (← extend f rest)) :=
  rfl

/-- A loop that folds in what each round returns, as one fold over all of it. -/
theorem foldlM_fold {f : α → Except ε (List β)} {h : γ → β → γ} (l : List α) (c : γ) :
    l.foldlM (fun c a => do return (← f a).foldl h c) c = (do return (← extend f l).foldl h c) := by
  induction l generalizing c with
  | nil => rfl
  | cons a rest ih =>
    rw [List.foldlM_cons, extend_cons]
    cases f a with
    | error e => rfl
    | ok first =>
      have next := ih (first.foldl h c)
      simp only [bind, Except.bind, pure, Except.pure] at next ⊢
      rw [next]
      cases extend f rest with
      | error e => rfl
      | ok others => simp [List.foldl_append]

/-- `for a in l: if test(a): return a`. -/
def firstThat (test : α → Except ε Bool) : List α → Except ε (Option α)
  | [] => .ok none
  | a :: rest => do
    if ← test a then return some a
    firstThat test rest

section
variable {f : α → Except ε (List β)}

theorem extend_congr {g : α → Except ε (List β)} {l : List α} (same : ∀ a ∈ l, f a = g a) :
    extend f l = extend g l := by
  induction l with
  | nil => rfl
  | cons a rest ih =>
    obtain ⟨first, others⟩ := List.forall_mem_cons.mp same
    rw [extend_cons, extend_cons, first, ih others]

/-- Rounds that return nothing can be left out. -/
theorem extend_filter {keep : α → Bool} {l : List α} (skipped : ∀ a, keep a = false → f a = .ok []) :
    extend f (l.filter keep) = extend f l := by
  induction l with
  | nil => rfl
  | cons a rest ih =>
    rw [List.filter_cons]
    cases kept : keep a with
    | true => simp only [if_true, extend_cons, ih]
    | false =>
      simp only [Bool.false_eq_true, if_false, extend_cons, ih, skipped a kept]
      cases extend f rest <;> rfl

theorem extend_cons_ok {a : α} {rest : List α} {all : List β} :
    extend f (a :: rest) = .ok all ↔
      ∃ first others, f a = .ok first ∧ extend f rest = .ok others ∧ first ++ others = all := by
  simp only [extend_cons, bind_ok, pure_ok]
  constructor
  · rintro ⟨first, ran, others, looped, same⟩; exact ⟨first, others, ran, looped, same⟩
  · rintro ⟨first, others, ran, looped, same⟩; exact ⟨first, ran, others, looped, same⟩

theorem extend_eq_nil {l : List α} : extend f l = .ok [] ↔ ∀ a ∈ l, f a = .ok [] := by
  induction l with
  | nil => exact iff_of_true rfl (fun _ inside => nomatch inside)
  | cons a rest ih =>
    rw [extend_cons_ok, List.forall_mem_cons, ← ih]
    constructor
    · rintro ⟨first, others, ran, looped, same⟩
      obtain ⟨rfl, rfl⟩ := List.append_eq_nil_iff.mp same
      exact ⟨ran, looped⟩
    · rintro ⟨ran, looped⟩
      exact ⟨[], [], ran, looped, rfl⟩

/-- A loop returns if all of its rounds do. -/
theorem exists_extend_ok {l : List α} (rounds : ∀ a ∈ l, ∃ part, f a = .ok part) : ∃ all, extend f l = .ok all := by
  induction l with
  | nil => exact ⟨[], rfl⟩
  | cons a rest ih =>
    obtain ⟨⟨first, ran⟩, others⟩ := List.forall_mem_cons.mp rounds
    obtain ⟨all, looped⟩ := ih others
    exact ⟨first ++ all, extend_cons_ok.mpr ⟨first, all, ran, looped, rfl⟩⟩

/-- A loop that returns has all that its rounds return. -/
theorem extend_ok : ∀ {l : List α} {all : List β}, extend f l = .ok all →
    ∀ a ∈ l, ∃ part, f a = .ok part ∧ part ⊆ all := by
  intro l
  induction l with
  | nil => intro all _ a member; cases member
  | cons a rest ih =>
    intro all returned b member
    obtain ⟨first, others, ran, looped, rfl⟩ := extend_cons_ok.mp returned
    rcases List.mem_cons.mp member with rfl | inside
    · exact ⟨first, ran, List.subset_append_left _ _⟩
    · obtain ⟨part, returned', within⟩ := ih looped b inside
      exact ⟨part, returned', fun x here => List.mem_append_right _ (within here)⟩

/-- What a loop returns comes from one of its rounds. -/
theorem mem_extend : ∀ {l : List α} {all : List β}, extend f l = .ok all →
    ∀ b ∈ all, ∃ a ∈ l, ∃ part, f a = .ok part ∧ b ∈ part := by
  intro l
  induction l with
  | nil =>
    intro all returned b member
    obtain rfl := pure_ok.mp returned
    cases member
  | cons a rest ih =>
    intro all returned b member
    obtain ⟨first, others, ran, looped, rfl⟩ := extend_cons_ok.mp returned
    rcases List.mem_append.mp member with here | later
    · exact ⟨a, List.mem_cons_self, first, ran, here⟩
    · obtain ⟨a', inside, part, returned', found⟩ := ih looped b later
      exact ⟨a', List.mem_cons_of_mem _ inside, part, returned', found⟩

theorem mem_extend_iff {l : List α} {all : List β} (returned : extend f l = .ok all) {b : β} :
    b ∈ all ↔ ∃ a ∈ l, ∃ part, f a = .ok part ∧ b ∈ part := by
  constructor
  · exact mem_extend returned b
  · rintro ⟨a, member, part, ran, inside⟩
    obtain ⟨part', ran', within⟩ := extend_ok returned a member
    obtain rfl := Except.ok.inj (ran.symm.trans ran')
    exact within inside

/-- What holds of all that a loop returns holds of what each round returns. -/
theorem forall_mem_extend {l : List α} {all : List β} (returned : extend f l = .ok all) {P : β → Prop} :
    (∀ b ∈ all, P b) ↔ ∀ a ∈ l, ∀ part, f a = .ok part → ∀ b ∈ part, P b := by
  simp only [mem_extend_iff returned]
  constructor
  · intro every a member part ran b inside
    exact every b ⟨a, member, part, ran, inside⟩
  · rintro every b ⟨a, member, part, ran, inside⟩
    exact every a member part ran b inside

/-- In another order the rounds return the same in another order. -/
theorem extend_perm {l l' : List α} (perm : l.Perm l') : ∀ {all : List β}, extend f l = .ok all →
    ∃ all', extend f l' = .ok all' ∧ all.Perm all' := by
  induction perm with
  | nil => intro all returned; exact ⟨all, returned, .refl _⟩
  | cons a _ ih =>
    intro all returned
    obtain ⟨first, others, ran, looped, rfl⟩ := extend_cons_ok.mp returned
    obtain ⟨others', looped', moved⟩ := ih looped
    exact ⟨first ++ others', extend_cons_ok.mpr ⟨first, others', ran, looped', rfl⟩, moved.append_left _⟩
  | swap a b rest =>
    intro all returned
    obtain ⟨first, _, ran, looped, rfl⟩ := extend_cons_ok.mp returned
    obtain ⟨second, others, ran', looped', rfl⟩ := extend_cons_ok.mp looped
    refine ⟨second ++ (first ++ others), extend_cons_ok.mpr ⟨second, _, ran', ?_, rfl⟩, ?_⟩
    · exact extend_cons_ok.mpr ⟨first, others, ran, looped', rfl⟩
    · rw [← List.append_assoc, ← List.append_assoc]
      exact List.perm_append_comm.append_right _
  | trans _ _ ih ih' =>
    intro all returned
    obtain ⟨mid, returned', moved⟩ := ih returned
    obtain ⟨all', returned'', moved'⟩ := ih' returned'
    exact ⟨all', returned'', moved.trans moved'⟩

end

theorem firstThat_some {test : α → Except ε Bool} {a : α} : ∀ {l : List α},
    firstThat test l = .ok (some a) → a ∈ l ∧ test a = .ok true := by
  intro l
  induction l with
  | nil => intro found; cases found
  | cons b rest ih =>
    intro found
    obtain ⟨hit, tested, tail⟩ := bind_ok.mp found
    cases hit with
    | true =>
      obtain rfl := Option.some.inj (pure_ok.mp tail)
      exact ⟨List.mem_cons_self, tested⟩
    | false =>
      obtain ⟨inside, passed⟩ := ih tail
      exact ⟨List.mem_cons_of_mem _ inside, passed⟩

theorem firstThat_none {test : α → Except ε Bool} : ∀ {l : List α},
    firstThat test l = .ok none → ∀ a ∈ l, test a = .ok false := by
  intro l
  induction l with
  | nil => intro _ a member; cases member
  | cons b rest ih =>
    intro found a member
    obtain ⟨hit, tested, tail⟩ := bind_ok.mp found
    cases hit with
    | true => cases tail
    | false =>
      rcases List.mem_cons.mp member with rfl | inside
      · exact tested
      · exact ih tail a inside

/-! ### Two runs -/

/-- The elements of two lists are related one to one, in some order. -/
def Matches (R : α → β → Prop) (l : List α) (l' : List β) : Prop := Multiset.Rel R (l : Multiset α) (l' : Multiset β)

section
variable {R : α → β → Prop} {l : List α} {l' : List β}

theorem matches_nil : Matches R [] [] := .zero

theorem matches_cons {a : α} {b : β} (head : R a b) (tail : Matches R l l') : Matches R (a :: l) (b :: l') :=
  .cons head tail

theorem matches_append {k : List α} {k' : List β} (first : Matches R l l') (second : Matches R k k') :
    Matches R (l ++ k) (l' ++ k') := by
  rw [Matches, ← Multiset.coe_add, ← Multiset.coe_add]
  exact Multiset.Rel.add first second

theorem matches_nil_left (related : Matches R [] l') : l' = [] :=
  (Multiset.coe_eq_zero l').mp (Multiset.rel_zero_left.mp related)

theorem matches_perm {k' : List β} (related : Matches R l l') (moved : l'.Perm k') : Matches R l k' := by
  rw [Matches, ← Multiset.coe_eq_coe.mpr moved]
  exact related

/-- The partner of the first element, with partners for the others. -/
theorem matches_cons_left {a : α} (related : Matches R (a :: l) l') :
    ∃ b rest, R a b ∧ Matches R l rest ∧ l'.Perm (b :: rest) := by
  rw [Matches, ← Multiset.cons_coe, Multiset.rel_cons_left] at related
  obtain ⟨b, others, pair, tail, same⟩ := related
  induction others using Quotient.inductionOn with
  | h rest => exact ⟨b, rest, pair, tail, Multiset.coe_eq_coe.mp same⟩

theorem matches_left (related : Matches R l l') {a : α} (member : a ∈ l) : ∃ b ∈ l', R a b :=
  Multiset.exists_mem_of_rel_of_mem related member

theorem matches_right (related : Matches R l l') {b : β} (member : b ∈ l') : ∃ a ∈ l, R a b :=
  Multiset.exists_mem_of_rel_of_mem (Multiset.rel_flip.mpr related) member

theorem matches_map {S : γ → δ → Prop} {f : α → γ} {g : β → δ} (one : ∀ a b, R a b → S (f a) (g b))
    (related : Matches R l l') : Matches S (l.map f) (l'.map g) := by
  rw [Matches, ← Multiset.map_coe, ← Multiset.map_coe, Multiset.rel_map]
  exact Multiset.Rel.mono related (fun a _ b _ => one a b)

/-- Partners of elements of the list. -/
theorem matches_mem (related : Matches R l l') : Matches (fun a b => a ∈ l ∧ R a b) l l' :=
  Multiset.Rel.mono related (fun _ member _ _ pair => ⟨member, pair⟩)

theorem matches_isEmpty (related : Matches R l l') : l.isEmpty = l'.isEmpty := by
  cases l with
  | nil => rw [matches_nil_left related]; rfl
  | cons a rest =>
    obtain ⟨b, rest', _, _, moved⟩ := matches_cons_left related
    cases l' with
    | nil => exact absurd moved.length_eq (by simp)
    | cons => rfl

end

/-- Where both programs return, what they return is related. -/
def Agree (R : α → β → Prop) (x : Except ε α) (y : Except ε β) : Prop :=
  ∀ a b, x = .ok a → y = .ok b → R a b

section
variable {R : α → β → Prop} {S : γ → δ → Prop}

theorem agree_pure {a : α} {b : β} (related : R a b) : Agree R (pure a : Except ε α) (pure b) := by
  rintro _ _ left right
  obtain rfl := pure_ok.mp left
  obtain rfl := pure_ok.mp right
  exact related

/-- The second parts need only agree on what the first parts return. -/
theorem agree_bind_of {x : Except ε α} {y : Except ε β} {f : α → Except ε γ} {g : β → Except ε δ} (first : Agree R x y)
    (second : ∀ a b, x = .ok a → y = .ok b → R a b → Agree S (f a) (g b)) : Agree S (x >>= f) (y >>= g) := by
  rintro c d left right
  obtain ⟨a, ran, left⟩ := bind_ok.mp left
  obtain ⟨b, ran', right⟩ := bind_ok.mp right
  exact second a b ran ran' (first a b ran ran') c d left right

theorem agree_bind {x : Except ε α} {y : Except ε β} {f : α → Except ε γ} {g : β → Except ε δ} (first : Agree R x y)
    (second : ∀ a b, R a b → Agree S (f a) (g b)) : Agree S (x >>= f) (y >>= g) :=
  agree_bind_of first (fun a b _ _ => second a b)

theorem agree_map {x : Except ε α} {y : Except ε β} {f : α → γ} {g : β → δ} (first : Agree R x y)
    (second : ∀ a b, x = .ok a → y = .ok b → R a b → S (f a) (g b)) : Agree S (f <$> x) (g <$> y) := by
  simp only [← bind_pure_comp]
  exact agree_bind_of first (fun a b ran ran' related => agree_pure (second a b ran ran' related))

theorem agree_ite {b b' : Bool} (same : b = b') {x x' : Except ε α} {y y' : Except ε β} (yes : Agree R x y)
    (no : Agree R x' y') : Agree R (if b then x else x') (if b' then y else y') := by
  subst same
  cases b
  · exact no
  · exact yes

/-- One value on both sides. -/
theorem agree_same {x y : Except ε α} (same : x = y) : Agree (· = ·) x y := by
  rintro a b left right
  exact Except.ok.inj (left.symm.trans (same.trans right))

theorem agree_any (x : Except ε α) (y : Except ε β) : Agree (fun _ _ => True) x y := fun _ _ _ _ => trivial

/-- Rounds that agree on related elements make loops that agree up to order. -/
theorem agree_extend {f : α → Except ε (List γ)} {g : β → Except ε (List δ)}
    (round : ∀ a b, R a b → Agree (Matches S) (f a) (g b)) :
    ∀ {l : List α} {l' : List β}, Matches R l l' → Agree (Matches S) (extend f l) (extend g l') := by
  intro l
  induction l with
  | nil =>
    intro l' related r r' left right
    obtain rfl := pure_ok.mp left
    obtain rfl := matches_nil_left related
    obtain rfl := pure_ok.mp right
    exact matches_nil
  | cons a rest ih =>
    intro l' related r r' left right
    obtain ⟨b, rest', pair, tail, moved⟩ := matches_cons_left related
    obtain ⟨r'', right', order⟩ := extend_perm moved right
    obtain ⟨first, others, ran, looped, rfl⟩ := extend_cons_ok.mp left
    obtain ⟨first', others', ran', looped', rfl⟩ := extend_cons_ok.mp right'
    have parts := matches_append (round a b pair first first' ran ran') (ih tail others others' looped looped')
    exact matches_perm parts order.symm

/-- Over lists that are related one after another, so are the results. -/
theorem agree_extend_forall₂ {f : α → Except ε (List γ)} {g : β → Except ε (List δ)} {l : List α} {l' : List β}
    (related : List.Forall₂ R l l') (round : ∀ a ∈ l, ∀ b, R a b → Agree (List.Forall₂ S) (f a) (g b)) :
    Agree (List.Forall₂ S) (extend f l) (extend g l') := by
  induction related with
  | nil => exact agree_pure .nil
  | @cons a b _ _ pair _ ih =>
    obtain ⟨here, others⟩ := List.forall_mem_cons.mp round
    simp only [extend_cons]
    refine agree_bind (here b pair) (fun first first' one => agree_bind (ih others) (fun rest rest' tail => ?_))
    exact agree_pure (List.rel_append one tail)

/-- A search finds what stands at the same place. -/
theorem agree_firstThat_forall₂ {test : α → Except ε Bool} {test' : β → Except ε Bool}
    (same : ∀ a b, R a b → test a = test' b) {l : List α} {l' : List β} (related : List.Forall₂ R l l') :
    Agree (Option.Rel R) (firstThat test l) (firstThat test' l') := by
  induction related with
  | nil => exact agree_pure .none
  | @cons a b _ _ pair _ ih =>
    simp only [firstThat, ← same a b pair]
    refine agree_bind (agree_same rfl) (fun hit _ equal => ?_)
    subst equal
    exact agree_ite rfl (agree_pure (.some pair)) ih

/-- At most one element passes. -/
def Single (test : α → Except ε Bool) (l : List α) : Prop :=
  ∀ a ∈ l, ∀ a' ∈ l, test a = .ok true → test a' = .ok true → a = a'

theorem single_singleton {test : α → Except ε Bool} {a : α} : Single test [a] := by
  intro b member b' member' _ _
  rw [List.mem_singleton.mp member, List.mem_singleton.mp member']

/-- Searches with tests that agree find related elements, where at most one
    element passes. -/
theorem agree_firstThat {test : α → Except ε Bool} {test' : β → Except ε Bool}
    (same : ∀ a b, R a b → test a = test' b) {l : List α} {l' : List β} (related : Matches R l l')
    (single : Single test l) :
    Agree (Option.Rel R) (firstThat test l) (firstThat test' l') := by
  rintro found found' left right
  cases found with
  | some a =>
    obtain ⟨member, passed⟩ := firstThat_some left
    obtain ⟨b, member', pair⟩ := matches_left related member
    cases found' with
    | some b' =>
      obtain ⟨inside, passed'⟩ := firstThat_some right
      obtain ⟨a', other, pair'⟩ := matches_right related inside
      obtain rfl := single a member a' other passed ((same a' b' pair').trans passed')
      exact .some pair'
    | none =>
      have missed := firstThat_none right b member'
      rw [← same a b pair, passed] at missed
      cases missed
  | none =>
    cases found' with
    | some b' =>
      obtain ⟨inside, passed'⟩ := firstThat_some right
      obtain ⟨a', other, pair'⟩ := matches_right related inside
      have missed := firstThat_none left a' other
      rw [same a' b' pair', passed'] at missed
      cases missed
    | none => exact .none

end

end ScanApi.Raising
