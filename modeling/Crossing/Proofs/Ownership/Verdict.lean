import Crossing.Ownership.Rule
import Crossing.Proofs.InterfaceType.Parts

/-!
# The verdicts of the rule

What it takes for a slot to get a mode, one lemma for each way of reaching it: nothing but a loan in
view (`eq_borrowed_of_view`), and otherwise what the holding says (`Grant`, `grant_of_verdict`). A
value that owns nothing is lent, and so is everything that it holds in place
(`ownsResources_part`).
-/

namespace Crossing

namespace InterfaceType

/-- The type is a pointer to what borrows, held as optional. -/
def LentOptional (t : InterfaceType) : Prop := t.holding = .optional ∧ t.borrows = true

theorem effectiveHolding_of_ne {t : InterfaceType} (h : t.holding ≠ .optional) :
    t.effectiveHolding = .ok t.holding := by
  unfold effectiveHolding
  split
  · exact absurd rfl h
  · rw [if_neg h]

/-- What is held as optional counts as a reference when it borrows. -/
theorem effectiveHolding_optional {t : InterfaceType} {h : Holding} (ht : t.holding = .optional)
    (he : t.effectiveHolding = .ok h) : h = if t.borrows then .borrowed else .optional := by
  unfold effectiveHolding at he
  split at he
  · simp only [Except.ok.injEq] at he
    rw [← he]
    rfl
  · rw [if_pos ht] at he
    simp at he

theorem ownsResources_of_mem_fields : ∀ {fs : List (Field InterfaceType)},
    ownsFields fs = .ok false → ∀ f ∈ fs, f.type.ownsResources = .ok false
  | [], _ => by simp
  | ⟨name, t⟩ :: fs, h => by
    rw [ownsFields] at h
    rcases ht : t.ownsResources with e | _ | _ <;> rw [ht] at h
    · simp [bind, Except.bind] at h
    · intro f hf
      rcases List.mem_cons.1 hf with rfl | hf
      · exact ht
      · exact ownsResources_of_mem_fields h f hf
    · simp [bind, Except.bind, pure, Except.pure] at h

theorem ownsFields_of_mem_variants : ∀ {vs : List (Variant InterfaceType)},
    ownsVariants vs = .ok false → ∀ v ∈ vs, ownsFields v.fields = .ok false
  | [], _ => by simp
  | ⟨name, tag, fs⟩ :: vs, h => by
    rw [ownsVariants] at h
    rcases hfs : ownsFields fs with e | _ | _ <;> rw [hfs] at h
    · simp [bind, Except.bind] at h
    · intro v hv
      rcases List.mem_cons.1 hv with rfl | hv
      · exact hfs
      · exact ownsFields_of_mem_variants h v hv
    · simp [bind, Except.bind, pure, Except.pure] at h

theorem ownsResources_part {t u : InterfaceType} (hheld : t.holding = .value)
    (hkind : t.kind ≠ .function) (h : t.ownsResources = .ok false) (hu : u ∈ t.parts) :
    u.ownsResources = .ok false := by
  cases t with
  | pointer target n k m =>
    obtain rfl : k = .value := hheld
    rw [parts_pointer, List.mem_singleton] at hu
    rw [hu]
    exact h
  | buffer e k =>
    obtain rfl : k = .value := hheld
    rw [parts_buffer, List.mem_singleton] at hu
    rw [hu]
    exact h
  | array e k n =>
    obtain rfl : k = .value := hheld
    rw [parts_array, List.mem_singleton] at hu
    rw [hu]
    exact h
  | record name fs =>
    rw [parts_record] at hu
    obtain ⟨f, hf, rfl⟩ := List.mem_map.1 hu
    exact ownsResources_of_mem_fields h f hf
  | taggedUnion name vs =>
    rw [parts_taggedUnion] at hu
    obtain ⟨v, hv, hu⟩ := List.mem_flatMap.1 hu
    obtain ⟨f, hf, rfl⟩ := List.mem_map.1 hu
    exact ownsResources_of_mem_fields (ownsFields_of_mem_variants h v hv) f hf
  | function => exact absurd rfl hkind
  | primitive | text | handle => simp at hu

/-- `t.InPlace u`: a value of `t` holds one of `u` in place, or `u` is `t`. -/
def InPlace : InterfaceType → InterfaceType → Prop :=
  Relation.ReflTransGen fun t u => t.holding = .value ∧ t.kind ≠ .function ∧ u ∈ t.parts

/-- Nothing that a value of the type holds in place is owned, shared by count, or an optional value
that would have to be freed. -/
def OwnsNothing (t : InterfaceType) : Prop :=
  ∀ u, t.InPlace u → u.holding ≠ .owned ∧ u.holding ≠ .counted ∧
    (u.holding = .optional → u.borrows = true)

theorem holding_of_ownsResources {t : InterfaceType} (h : t.ownsResources = .ok false) :
    t.holding ≠ .owned ∧ t.holding ≠ .counted ∧ (t.holding = .optional → t.borrows = true) := by
  cases t with
  | primitive | record | taggedUnion | handle => simp [holding]
  | pointer target n k m =>
    cases k <;> simp_all [holding, ownsResources, ownsThrough, borrows, borrowsThrough]
  | buffer e k | array e k n | text c k | function ps r f k =>
    cases k <;> simp_all [holding, ownsResources, ownsThrough]

theorem ownsNothing_of_ownsResources {t : InterfaceType} (h : t.ownsResources = .ok false) :
    t.OwnsNothing := by
  have hall : ∀ u, t.InPlace u → u.ownsResources = .ok false := by
    intro u hu
    induction hu with
    | refl => exact h
    | tail _ hstep ih => exact ownsResources_part hstep.1 hstep.2.1 ih hstep.2.2
  exact fun u hu => holding_of_ownsResources (hall u hu)

end InterfaceType

theorem Role.isTransfer_transfer (role : Role) : role.transfer.isTransfer = true := by
  cases role <;> rfl

namespace Standing

variable {role : Role} {t : InterfaceType} {hint : Option OwnershipMode} {m k : OwnershipMode}

/-- A slot gets a mode, be it from a hint. -/
def Gives (s : Standing) (t : InterfaceType) (hint : Option OwnershipMode) (k : OwnershipMode) :
    Prop :=
  s.verdict t hint = .ok (.mode k) ∨ s.verdict t hint = .ok (.hinted k)

/-- How a slot that is not in view gets its mode, where what is owned crosses as `m`. -/
inductive Grant (t : InterfaceType) (hint : Option OwnershipMode) (m k : OwnershipMode) : Prop where
  /-- A raw pointer as it is hinted. -/
  | hinted (held : t.holding = .raw) (hint : hint = some k)
  | counted (held : t.holding = .counted) (mode : k = .sharedCounted)
  /-- A value in place that owns something. -/
  | owning (held : t.holding = .value) (owns : t.ownsResources = .ok true) (mode : k = m)
  /-- A value in place that owns nothing. -/
  | plain (held : t.holding = .value) (owns : t.ownsResources = .ok false) (mode : k = .borrowed)
  /-- A pointer that owns, or an optional value that does not borrow. -/
  | owned (held : t.holding = .owned ∨ t.holding = .optional ∧ t.borrows = false) (mode : k = m)

theorem eq_of_mode {j : OwnershipMode}
    (h : (Except.ok (.mode j) : Except InterfaceType.Misheld ModeVerdict) = .ok (.mode k)
      ∨ (Except.ok (.mode j) : Except InterfaceType.Misheld ModeVerdict) = .ok (.hinted k)) :
    k = j := by
  simp at h
  exact h.symm

theorem eq_borrowed_of_view (h : Gives ⟨.view, role⟩ t hint k) : k = .borrowed := by
  unfold Gives verdict at h
  rcases he : t.effectiveHolding with e | eff <;> rw [he] at h <;>
    simp [bind, Except.bind, pure, Except.pure] at h
  exact h.symm

theorem effectiveHolding_of_gives {s : Standing} (h : Gives s t hint k) :
    (t.holding ≠ .optional ∧ t.effectiveHolding = .ok t.holding) ∨
      (t.LentOptional ∧ t.effectiveHolding = .ok .borrowed) ∨
        ((t.holding = .optional ∧ t.borrows = false) ∧ t.effectiveHolding = .ok .optional) := by
  by_cases hopt : t.holding = .optional
  · rcases he : t.effectiveHolding with e | eff
    · unfold Gives verdict at h
      simp [he, bind, Except.bind] at h
    · have heff := InterfaceType.effectiveHolding_optional hopt he
      cases hb : t.borrows with
      | true => exact .inr (.inl ⟨⟨hopt, hb⟩, by rw [heff, hb]; rfl⟩)
      | false => exact .inr (.inr ⟨⟨hopt, rfl⟩, by rw [heff, hb]; rfl⟩)
  · exact .inl ⟨hopt, InterfaceType.effectiveHolding_of_ne hopt⟩

/-- Inside a transferred value nothing is held by reference. -/
theorem grant_of_transfer (h : Gives ⟨.transfer m, role⟩ t hint k) : Grant t hint m k := by
  have heff := effectiveHolding_of_gives h
  unfold Gives verdict at h
  rcases heff with ⟨hopt, he⟩ | ⟨-, he⟩ | ⟨hown, he⟩ <;>
    simp only [he, bind, Except.bind, pure, Except.pure] at h
  · cases hheld : t.holding <;> simp only [hheld] at h
    case value =>
      rcases ho : t.ownsResources with e | _ | _ <;> simp [plain, ho, Except.map] at h
      · exact .plain hheld ho h.symm
      · exact .owning hheld ho h.symm
    case borrowed => simp at h
    case owned => exact .owned (.inl hheld) (eq_of_mode h)
    case raw =>
      cases hint <;> simp at h
      exact .hinted hheld (h ▸ rfl)
    case counted => exact .counted hheld (eq_of_mode h)
    case optional => exact absurd hheld hopt
  · simp at h
  · exact .owned (.inr hown) (eq_of_mode h)

/-- At a position, references are lent, and so are raw pointers that no hint is given for. -/
theorem grant_of_position (h : Gives ⟨.position, role⟩ t hint k) :
    Grant t hint role.transfer k ∨
      k = .borrowed ∧ (t.holding = .borrowed ∨ t.LentOptional ∨ t.holding = .raw ∧ hint = none) := by
  have heff := effectiveHolding_of_gives h
  unfold Gives verdict at h
  rcases heff with ⟨hopt, he⟩ | ⟨hlent, he⟩ | ⟨hown, he⟩ <;>
    simp only [he, bind, Except.bind, pure, Except.pure] at h
  · cases hheld : t.holding <;> simp only [hheld] at h
    case value =>
      rcases ho : t.ownsResources with e | _ | _ <;> simp [plain, ho, Except.map] at h
      · exact .inl (.plain hheld ho h.symm)
      · exact .inl (.owning hheld ho h.symm)
    case borrowed => exact .inr ⟨eq_of_mode h, .inl rfl⟩
    case owned => exact .inl (.owned (.inl hheld) (eq_of_mode h))
    case raw =>
      cases hint with
      | none =>
        cases hr : role.lendsRaw <;> simp [hr] at h
        exact .inr ⟨h.symm, .inr (.inr ⟨rfl, rfl⟩)⟩
      | some hinted =>
        simp at h
        exact .inl (.hinted hheld (h ▸ rfl))
    case counted => exact .inl (.counted hheld (eq_of_mode h))
    case optional => exact absurd hheld hopt
  · exact .inr ⟨eq_of_mode h, .inr (.inl hlent)⟩
  · exact .inl (.owned (.inr hown) (eq_of_mode h))

end Standing

end Crossing
