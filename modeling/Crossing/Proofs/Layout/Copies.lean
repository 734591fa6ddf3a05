import Crossing.Proofs.Layout.Defined

/-!
# Arrays are laid out like copies

A fixed array has the size and the alignment of a record of as many fields of its element type, and
these fields stand at the multiples of the size of an element (`array_as_copies`). The array
multiplies and the record goes from field to field; both come to the same since no padding is ever
needed between two copies: whatever widths its primitives have, every layout closes at a multiple of
its alignment (`whole_of_layoutOf`), so that a run of copies stays aligned by itself (`place_copies`).
-/

namespace Crossing

namespace Layout

/-- A positive alignment, and a multiple of it for the size. The alignment need not be a power of
two. -/
structure Whole (l : Layout) : Prop where
  pos : 0 < l.align
  dvd_size : l.align ∣ l.size

theorem one_le_runAlign (parts : List (Field Layout)) : 1 ≤ runAlign parts := by
  induction parts with
  | nil => exact Int.le_refl 1
  | cons p parts ih => exact Int.le_trans ih (Int.le_max_right _ _)

theorem one_le_payloadAlign (variants : List (Variant Layout)) : 1 ≤ payloadAlign variants := by
  induction variants with
  | nil => exact Int.le_refl 1
  | cons v vs ih => exact Int.le_trans ih (Int.le_max_right _ _)

theorem Proper.whole {l : Layout} (h : l.Proper) : l.Whole := ⟨h.align.pos, h.dvd_size⟩

theorem whole_primitive (k : PrimitiveKind) (b : Int) : (primitive k b).Whole := by
  cases k with
  | unit => exact ⟨Int.one_pos, Int.dvd_zero _⟩
  | int | float | bool | char =>
    exact ⟨Int.lt_of_lt_of_le Int.one_pos (Int.le_max_left 1 (b / 8)), Int.dvd_refl _⟩

theorem Whole.array {l : Layout} (h : l.Whole) (n : Int) : (l.array n).Whole :=
  ⟨h.pos, Int.dvd_trans (dvd_alignUp h.pos _) (Int.dvd_mul_right _ _)⟩

theorem whole_record (parts : List (Field Layout)) : (record parts).Whole :=
  ⟨one_le_runAlign parts, dvd_alignUp (one_le_runAlign parts) _⟩

theorem whole_union (tag : TagLayout) (variants : List (Variant Layout)) :
    (union tag variants).Whole := by
  have hpos : 0 < (union tag variants).align :=
    Int.lt_of_lt_of_le (one_le_payloadAlign variants) (Int.le_max_right _ _)
  exact ⟨hpos, dvd_alignUp hpos _⟩

/-- What is a multiple of an alignment already stays where it is. -/
theorem alignUp_of_dvd {a v : Int} (ha : 0 < a) (h : a ∣ v) : alignUp v a = v :=
  Int.le_antisymm (alignUp_le ha (Int.le_refl v) h) (le_alignUp ha v)

section Copies

variable {l : Layout} (hl : l.Whole) {start : Int} (hstart : l.align ∣ start)
include hl hstart

/-- Copies from a multiple of their alignment on follow each other without gaps. -/
theorem place_copies (names : List String) :
    place start (names.map (⟨·, l⟩))
      = names.mapIdx fun i name => ⟨name, start + i * l.size, l.size, l.align⟩ := by
  induction names generalizing start with
  | nil => rfl
  | cons name names ih =>
    rw [List.map_cons, place, List.mapIdx_cons, alignUp_of_dvd hl.pos hstart,
      ih (Int.dvd_add hstart hl.dvd_size)]
    simp only [Int.natCast_zero, Int.zero_mul, Int.add_zero, Int.natCast_add, Int.natCast_one,
      Int.add_mul, Int.one_mul, Int.add_assoc, Int.add_comm l.size]

theorem runEnd_copies (names : List String) :
    runEnd start (names.map (⟨·, l⟩)) = start + names.length * l.size := by
  induction names generalizing start with
  | nil => simp [runEnd]
  | cons name names ih =>
    rw [List.map_cons, runEnd, alignUp_of_dvd hl.pos hstart, ih (Int.dvd_add hstart hl.dvd_size)]
    simp only [List.length_cons, Int.natCast_add, Int.natCast_one, Int.add_mul, Int.one_mul,
      Int.add_assoc, Int.add_comm l.size]

end Copies

theorem runAlign_copies {l : Layout} (hl : l.Whole) {names : List String} (hn : names ≠ []) :
    runAlign (names.map (⟨·, l⟩)) = l.align := by
  have hle : ∀ names : List String, runAlign (names.map (⟨·, l⟩)) ≤ l.align := by
    intro names
    induction names with
    | nil => exact hl.pos
    | cons name names ih => exact Int.max_le.2 ⟨Int.le_refl _, ih⟩
  cases names with
  | nil => exact absurd rfl hn
  | cons name names => exact Int.max_eq_left (hle names)

/-- The stride of an array is the size of its elements. -/
theorem Whole.array_size {l : Layout} (h : l.Whole) (n : Int) : (l.array n).size = n * l.size := by
  rw [Int.mul_comm]
  exact congrArg (· * n) (alignUp_of_dvd h.pos h.dvd_size)

theorem record_copies_size {l : Layout} (h : l.Whole) {names : List String} (hn : names ≠ []) :
    (record (names.map (⟨·, l⟩))).size = names.length * l.size := by
  have hend := runEnd_copies h (Int.dvd_zero _) names
  change alignUp (runEnd 0 _) (runAlign _) = _
  rw [hend, runAlign_copies h hn, Int.zero_add,
    alignUp_of_dvd h.pos (Int.dvd_trans h.dvd_size (Int.dvd_mul_left _ _))]

end Layout

namespace InterfaceType

open Layout

variable {w : WordSize} {t : InterfaceType} {l : Layout}

/-- Whatever type it is the layout of, a layout closes at a multiple of its alignment. -/
theorem whole_of_layoutOf (h : t.layoutOf w = .ok l) : l.Whole := by
  induction t using parts_induction generalizing l with
  | h t ih =>
    cases t with
    | primitive k b s => exact Except.ok.inj h ▸ whole_primitive k b
    | pointer | function | handle => exact Except.ok.inj h ▸ (proper_word w).whole
    | buffer | text => exact Except.ok.inj h ▸ (proper_wordPair w).whole
    | array e k n =>
      obtain ⟨le, he, rfl⟩ := array_of_layoutOf h
      exact (ih e (mem_parts_of_mem_placed (List.mem_singleton.2 rfl)) he).array n
    | record name fs =>
      obtain ⟨parts, -, rfl⟩ := record_of_layoutOf h
      exact whole_record parts
    | taggedUnion name vs =>
      obtain ⟨tag, parts, -, -, rfl⟩ := union_of_layoutOf h
      exact whole_union tag parts

/-- A record of copies is laid out from the layout of one. -/
theorem layoutOf_copies (h : t.layoutOf w = .ok l) (name : String) (names : List String) :
    (record name (names.map (⟨·, t⟩))).layoutOf w = .ok (.record (names.map (⟨·, l⟩))) := by
  refine layoutOf_record_of_laidOut name ?_
  induction names with
  | nil => exact .nil
  | cons first names ih => exact .cons ⟨rfl, h⟩ ih

end InterfaceType

open Layout InterfaceType

/-- A fixed array of an element type with a layout is as large and aligned as a record of as many
fields of that type, whose fields stand at the multiples of the size of an element. Nothing is
padded, since the size of every layout is a multiple of its alignment. -/
theorem array_as_copies {w : WordSize} {e : InterfaceType} {element : Layout}
    (he : LayoutEngine.Gives w e element) (held : Holding) (name : String) {names : List String}
    (hn : 1 ≤ names.length) :
    (∃ a r, LayoutEngine.Gives w (.array e held names.length) a
      ∧ LayoutEngine.Gives w (.record name (names.map (⟨·, e⟩))) r
      ∧ a.size = r.size ∧ a.align = r.align ∧ a.size = names.length * element.size
      ∧ r.fields = names.mapIdx fun i field =>
        ⟨field, i * element.size, element.size, element.align⟩)
      ∧ ∀ t l, LayoutEngine.Gives w t l → l.align ∣ l.size ∧ alignUp l.size l.align = l.size := by
  have hlayout := LayoutEngine.gives_iff.1 he
  have hwhole := whole_of_layoutOf hlayout
  have hne : names ≠ [] := List.ne_nil_of_length_pos hn
  refine ⟨⟨element.array names.length, .record (names.map (⟨·, element⟩)), ?array, ?record, ?size,
    (runAlign_copies hwhole hne).symm, hwhole.array_size _, ?fields⟩, fun t l hl => ?whole⟩
  case array =>
    refine LayoutEngine.gives_iff.2 ?_
    rw [layoutOf, hlayout]
    rfl
  case record => exact LayoutEngine.gives_iff.2 (layoutOf_copies hlayout name names)
  case size => rw [hwhole.array_size, record_copies_size hwhole hne]
  case fields =>
    refine (place_copies hwhole (Int.dvd_zero _) names).trans ?_
    simp only [Int.zero_add]
  case whole =>
    have h := whole_of_layoutOf (LayoutEngine.gives_iff.1 hl)
    exact ⟨h.dvd_size, alignUp_of_dvd h.pos h.dvd_size⟩

section Examples

/-- A number of 24 bits beside a byte, which takes six bytes at an alignment of three. -/
def oddSized : InterfaceType := .record "Odd" [⟨"wide", .int 24 false⟩, ⟨"narrow", .int 8 false⟩]

theorem array_as_copies_oddSized :
    ∃ element, LayoutEngine.Gives .bits32 oddSized element ∧ element.align = 3
      ∧ ∃ r, LayoutEngine.Gives .bits32 (.record "R" (["x", "y"].map (⟨·, oddSized⟩))) r
        ∧ r.size = 12 ∧ r.fields.map (·.offset) = [0, 6] := by
  have helement : LayoutEngine.Gives .bits32 oddSized (.record _) := LayoutEngine.gives_iff.2 rfl
  obtain ⟨⟨a, r, -, hr, hsize, -, harray, hfields⟩, -⟩ :=
    @array_as_copies .bits32 oddSized _ helement .value "R" ["x", "y"] (by decide)
  refine ⟨_, helement, by decide, r, hr, hsize ▸ harray, ?_⟩
  rw [hfields]
  decide

end Examples

end Crossing
