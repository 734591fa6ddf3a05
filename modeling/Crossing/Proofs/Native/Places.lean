import Crossing.Native.Document
import Mathlib.Data.List.Basic

/-!
# Where a module document is refused

A refusal names a place of the document, or that of a field which an object of it has not
(`Json.Located`), and it is a documented one unless the reading comes to an item whose kind is a list
or an object (`NativeModule.Trips`). Either holds of the readers one by one, in what they refuse
(`Refuses`), and along the tree of modules up to the first item or module that is refused.
-/

namespace Crossing

namespace Json

/-- The value one step below another. -/
def below? : Json → Step → Option Json
  | .obj fields, .field name => field? fields name
  | .arr items, .item index => items[index]?
  | _, _ => none

/-- The value at a place of a document. -/
def at? (document : Json) (place : Place) : Option Json := place.foldlM below? document

/-- The place is in the document, or it is that of a field which an object of it has not. -/
inductive Located (document : Json) : Place → Prop where
  | present {place : Place} {v : Json} (value : document.at? place = some v) :
    Located document place
  | missing {place : Place} {fields : Fields} {key : String}
    (object : document.at? place = some (.obj fields)) (absent : field? fields key = none) :
    Located document (place.field key)

variable {document v : Json} {place : Place} {fields : Fields} {items : List Json} {key : String}

theorem at?_concat (document : Json) (place : Place) (step : Step) :
    document.at? (place ++ [step]) = (document.at? place).bind (·.below? step) := by
  simp [at?, List.foldlM_append]

theorem at?_field (h : document.at? place = some (.obj fields)) :
    document.at? (place.field key) = field? fields key := by
  rw [Place.field, at?_concat, h]
  rfl

theorem at?_item (h : document.at? place = some (.arr items)) (index : Nat) :
    document.at? (place.item index) = items[index]? := by
  rw [Place.item, at?_concat, h]
  rfl

theorem Located.field (h : document.at? place = some (.obj fields)) (key : String) :
    Located document (place.field key) := by
  cases hkey : field? fields key with
  | none => exact .missing h hkey
  | some v => exact .present ((at?_field h).trans hkey)

end Json

namespace NativeModule

open Json (Fields Place Located)

variable {α β : Type} {P : Fault → Prop}

/-! ### What a reading is refused for -/

/-- Whatever the reading is refused for, it is as `P` says. -/
def Refuses (P : Fault → Prop) (r : Reading α) : Prop := ∀ f, r = .error f → P f

namespace Refuses

theorem pure (a : α) : Refuses P (pure a : Reading α) := by
  rintro f ⟨⟩

theorem refuse {place : Place} {refusal : Refusal} (h : P ⟨place, refusal⟩) :
    Refuses P (refuse place refusal : Reading α) := by
  rintro f ⟨⟩
  exact h

theorem bind {x : Reading α} {f : α → Reading β} (hx : Refuses P x)
    (hf : ∀ a, x = .ok a → Refuses P (f a)) : Refuses P (x >>= f) := by
  intro fault h
  cases x with
  | error e =>
    obtain rfl : e = fault := Except.error.inj h
    exact hx e rfl
  | ok a => exact hf a rfl fault h

theorem map {x : Reading α} (f : α → β) (hx : Refuses P x) : Refuses P (f <$> x) := by
  intro fault h
  cases x with
  | error e =>
    obtain rfl : e = fault := Except.error.inj h
    exact hx e rfl
  | ok a => simp at h

end Refuses

theorem bind_of_eq {x : Reading α} {a : α} (h : x = .ok a) (f : α → Reading β) :
    (x >>= f) = f a := by
  rw [h]
  rfl

/-- All of the items can be read, each at its place. -/
def Readable (place : Place) (read : Place → Json → Reading α) (items : List Json) : Prop :=
  ∀ i v, items[i]? = some v → ∃ a, read (place.item i) v = .ok a

/-- A loop over numbered items goes through all of them, or it ends at the first that fails. -/
theorem mapM_zipIdx_cases (g : Nat → Json → Reading α) (n : Nat) (items : List Json) :
    (∃ as, ((items.zipIdx n).mapM fun p => g p.2 p.1) = .ok as
        ∧ ∀ i v, items[i]? = some v → ∃ a, g (n + i) v = .ok a)
      ∨ ∃ before v behind f, items = before ++ v :: behind
        ∧ ((items.zipIdx n).mapM fun p => g p.2 p.1) = .error f
        ∧ (∀ i u, before[i]? = some u → ∃ a, g (n + i) u = .ok a)
        ∧ g (n + before.length) v = .error f := by
  induction items generalizing n with
  | nil => exact .inl ⟨[], rfl, by simp⟩
  | cons v items ih =>
    simp only [List.zipIdx_cons, List.mapM_cons]
    cases hv : g n v with
    | error f => exact .inr ⟨[], v, items, f, rfl, rfl, by simp, hv⟩
    | ok a =>
      have hshift : ∀ i, n + 1 + i = n + (i + 1) := by omega
      have hcons : ∀ us : List Json, (∀ i u, us[i]? = some u → ∃ a, g (n + 1 + i) u = .ok a) →
          ∀ i u, (v :: us)[i]? = some u → ∃ a, g (n + i) u = .ok a := by
        intro us hus i u hu
        cases i with
        | zero =>
          obtain rfl : v = u := by simpa using hu
          exact ⟨a, hv⟩
        | succ i => exact hshift i ▸ hus i u (by simpa using hu)
      rcases ih (n + 1) with ⟨as, has, hall⟩ | ⟨before, u, behind, f, rfl, hfails, hall, hu⟩
      · exact .inl ⟨a :: as, by rw [has]; rfl, hcons _ hall⟩
      · refine .inr ⟨v :: before, u, behind, f, rfl, by rw [hfails]; rfl, hcons _ hall, ?_⟩
        rw [List.length_cons, ← hshift]
        exact hu

/-- A list can be read, or it is refused for the first of its items that cannot. -/
theorem eachAt_cases (place : Place) (read : Place → Json → Reading α) (items : List Json) :
    (∃ as, eachAt place read items = .ok as ∧ Readable place read items)
      ∨ ∃ before v behind f, items = before ++ v :: behind ∧ eachAt place read items = .error f
        ∧ Readable place read before ∧ read (place.item before.length) v = .error f := by
  have h := mapM_zipIdx_cases (fun i => read (place.item i)) 0 items
  simp only [Nat.zero_add] at h
  exact h

theorem exists_eachAt {place : Place} {read : Place → Json → Reading α} {items : List Json}
    (h : Readable place read items) : ∃ as, eachAt place read items = .ok as := by
  rcases eachAt_cases place read items with ⟨as, has, -⟩ | ⟨before, v, behind, f, rfl, -, -, hv⟩
  · exact ⟨as, has⟩
  · obtain ⟨a, ha⟩ := h before.length v (by simp)
    cases ha.symm.trans hv

theorem readable_of_eachAt {place : Place} {read : Place → Json → Reading α} {items : List Json}
    {as : List α} (h : eachAt place read items = .ok as) : Readable place read items := by
  rcases eachAt_cases place read items with ⟨-, -, hread⟩ | ⟨_, _, _, f, -, hf, -⟩
  · exact hread
  · cases h.symm.trans hf

theorem eachAt_of_error {place : Place} {read : Place → Json → Reading α}
    {before behind : List Json} {v : Json} {f : Fault} (h : Readable place read before)
    (hv : read (place.item before.length) v = .error f) :
    eachAt place read (before ++ v :: behind) = .error f := by
  obtain ⟨as, has⟩ := exists_eachAt h
  unfold eachAt at has ⊢
  simp only [List.zipIdx_append, List.mapM_append, has, List.zipIdx_cons, List.mapM_cons,
    Nat.zero_add, hv]
  rfl

/-- A list is refused for the first of its items that cannot be read. -/
theorem Refuses.eachAt {place : Place} {read : Place → Json → Reading α} {items : List Json}
    (h : ∀ before v behind, items = before ++ v :: behind → Readable place read before →
      Refuses P (read (place.item before.length) v)) : Refuses P (eachAt place read items) := by
  rcases eachAt_cases place read items with
    ⟨as, has, -⟩ | ⟨before, v, behind, f, hitems, hf, hread, hv⟩
  · rw [has]
    exact .pure as
  · rw [hf]
    rintro _ ⟨⟩
    exact h before v behind hitems hread f hv

/-! ### Readers -/

/-- The fault names a place of the document, and it is not that of a kind which no table of kinds
can be asked for. -/
structure Documented (document : Json) (f : Fault) : Prop where
  place : Located document f.place
  refusal : f.refusal ≠ .compoundKind

section Readers

variable {document : Json} {place : Place} {fields : Fields} {allowed : List String} {v : Json}

theorem objectAt_eq_ok (h : objectAt place allowed v = .ok fields) :
    v = .obj fields ∧ Json.unknownFields fields allowed = [] := by
  unfold objectAt at h
  split at h
  · split at h
    · obtain rfl := Except.ok.inj h
      exact ⟨rfl, ‹_›⟩
    · simp [refuse] at h
  · simp [refuse] at h

theorem refuses_objectAt (h : document.at? place = some v) :
    Refuses (Documented document) (objectAt place allowed v) := by
  unfold objectAt
  split
  · split
    · exact .pure _
    · exact .refuse ⟨.present h, by simp⟩
  · exact .refuse ⟨.present h, by simp⟩

variable (h : document.at? place = some (.obj fields))
include h

theorem refuses_field (key : String) {refusal : Refusal} (hrefusal : refusal ≠ .compoundKind) :
    Refuses (Documented document) (refuse (place.field key) refusal : Reading α) :=
  .refuse ⟨.field h key, hrefusal⟩

theorem refuses_stringAt (key : String) :
    Refuses (Documented document) (stringAt place fields key) := by
  unfold stringAt
  split
  · split
    · exact refuses_field h key (by simp)
    · exact .pure _
  · exact refuses_field h key (by simp)

theorem refuses_stringOr (key default : String) :
    Refuses (Documented document) (stringOr place fields key default) := by
  unfold stringOr
  split
  · exact .pure _
  · exact .pure _
  · exact refuses_field h key (by simp)

theorem refuses_optionalString (key : String) :
    Refuses (Documented document) (optionalString place fields key) := by
  unfold optionalString
  split
  · exact .pure _
  · exact .pure _
  · exact refuses_field h key (by simp)

theorem refuses_flagAt (key : String) :
    Refuses (Documented document) (flagAt place fields key) := by
  unfold flagAt
  split
  · exact .pure _
  · exact .pure _
  · exact refuses_field h key (by simp)

theorem refuses_stringsAt (key : String) :
    Refuses (Documented document) (stringsAt place fields key) := by
  unfold stringsAt
  split
  · exact .pure _
  · split
    · exact .pure _
    · exact refuses_field h key (by simp)
  · exact refuses_field h key (by simp)

theorem refuses_listAt (key : String) :
    Refuses (Documented document) (listAt place fields key) := by
  unfold listAt
  split
  · exact .pure _
  · exact .pure _
  · exact refuses_field h key (by simp)

theorem refuses_visibilityAt (default : Visibility) :
    Refuses (Documented document) (visibilityAt place fields default) := by
  unfold visibilityAt
  split
  · exact .pure _
  · split
    · exact .pure _
    · exact refuses_field h _ (by simp)
  · exact refuses_field h _ (by simp)

theorem refuses_typeAt (key : String) :
    Refuses (Documented document) (typeAt place fields key) := by
  unfold typeAt
  split
  · exact .pure _
  · exact refuses_field h key (by simp)

theorem refuses_spanAt : Refuses (Documented document) (spanAt place fields) := by
  unfold spanAt
  simp only
  split
  · exact .pure _
  · exact refuses_field h _ (by simp)

theorem refuses_styleAt (default : FieldStyle) :
    Refuses (Documented document) (styleAt place fields default) := by
  unfold styleAt
  split
  · exact .pure _
  · split
    · exact .pure _
    · exact refuses_field h _ (by simp)

omit h in
/-- A list that was read is that of the field, or empty when there is no such field. -/
theorem listAt_eq_ok {key : String}
    {items : { items : List Json // ∀ v ∈ items, sizeOf v < sizeOf fields }}
    (hitems : listAt place fields key = .ok items) :
    Json.field? fields key = none ∧ items.val = [] ∨
      Json.field? fields key = some (.arr items.val) := by
  unfold listAt at hitems
  split at hitems
  · rename_i hnone
    obtain rfl := Except.ok.inj hitems
    exact .inl ⟨hnone, rfl⟩
  · rename_i harr
    obtain rfl := Except.ok.inj hitems
    exact .inr harr
  · simp [refuse] at hitems

omit h in
theorem field?_of_listAt {key : String}
    {items : { items : List Json // ∀ v ∈ items, sizeOf v < sizeOf fields }}
    (hitems : listAt place fields key = .ok items) {before behind : List Json}
    (hval : items.val = before ++ v :: behind) :
    Json.field? fields key = some (.arr (before ++ v :: behind)) := by
  rcases listAt_eq_ok hitems with ⟨-, hnil⟩ | harr
  · simp [hnil] at hval
  · rw [harr, hval]

theorem at?_of_listAt {key : String}
    {items : { items : List Json // ∀ v ∈ items, sizeOf v < sizeOf fields }}
    (hitems : listAt place fields key = .ok items) {before behind : List Json}
    (hval : items.val = before ++ v :: behind) :
    document.at? ((place.field key).item before.length) = some v := by
  rw [Json.at?_item ((Json.at?_field h).trans (field?_of_listAt hitems hval))]
  simp

theorem refuses_itemsAt (key : String) {read : Place → Json → Reading α}
    (hread : ∀ {place v}, document.at? place = some v →
      Refuses (Documented document) (read place v))
    {items : { items : List Json // ∀ v ∈ items, sizeOf v < sizeOf fields }}
    (hitems : listAt place fields key = .ok items) :
    Refuses (Documented document) (eachAt (place.field key) read items.val) :=
  .eachAt fun _ _ _ hval _ => hread (at?_of_listAt h hitems hval)

omit h

theorem refuses_fieldOf (default : Visibility) (h : document.at? place = some v) :
    Refuses (Documented document) (fieldOf default place v) := by
  refine .bind (refuses_objectAt h) fun fields hfields => ?_
  obtain ⟨rfl, -⟩ := objectAt_eq_ok hfields
  extract_lets rest
  have hrest : ∀ name, Refuses (Documented document) (rest name) := fun _ =>
    .bind (refuses_typeAt h _) fun _ _ => .bind (refuses_visibilityAt h default) fun _ _ => .pure _
  split
  · exact .bind (.pure _) fun _ _ => hrest _
  · split
    · exact .bind (.pure _) fun _ _ => hrest _
    · exact .bind (refuses_field h _ (by simp)) fun _ _ => hrest _

theorem refuses_fieldsAt (default : Visibility) (h : document.at? place = some (.obj fields)) :
    Refuses (Documented document) (fieldsAt place fields default) :=
  .bind (refuses_listAt h _) fun _ hitems => refuses_itemsAt h _ (refuses_fieldOf default) hitems

theorem refuses_parameterOf (h : document.at? place = some v) :
    Refuses (Documented document) (parameterOf place v) := by
  refine .bind (refuses_objectAt h) fun fields hfields => ?_
  obtain ⟨rfl, -⟩ := objectAt_eq_ok hfields
  exact .bind (refuses_stringAt h _) fun _ _ => .bind (refuses_typeAt h _) fun _ _ => .pure _

theorem refuses_variantOf (h : document.at? place = some v) :
    Refuses (Documented document) (variantOf place v) := by
  refine .bind (refuses_objectAt h) fun fields hfields => ?_
  obtain ⟨rfl, -⟩ := objectAt_eq_ok hfields
  extract_lets rest
  have hrest : ∀ discriminant, Refuses (Documented document) (rest discriminant) := fun _ =>
    .bind (refuses_fieldsAt .everyone h) fun _ _ => .bind (refuses_stringAt h _) fun _ _ =>
      .bind (refuses_styleAt h _) fun _ _ => .pure _
  split
  · exact .bind (.pure _) fun _ _ => hrest _
  · exact .bind (.pure _) fun _ _ => hrest _
  · exact .bind (refuses_field h _ (by simp)) fun _ _ => hrest _

theorem refuses_otherOf (kind : String) (h : document.at? place = some v) :
    Refuses (Documented document) (otherOf place kind v) := by
  refine .bind (refuses_objectAt h) fun fields hfields => ?_
  obtain ⟨rfl, -⟩ := objectAt_eq_ok hfields
  exact .bind (refuses_stringOr h _ _) fun _ _ => .bind (refuses_visibilityAt h _) fun _ _ =>
    .bind (refuses_stringsAt h _) fun _ _ => .bind (refuses_spanAt h) fun _ _ => .pure _

theorem refuses_functionBody (h : document.at? place = some (.obj fields)) :
    Refuses (Documented document) (functionBody place fields) := by
  refine .bind (refuses_listAt h _) fun _ hitems =>
    .bind (refuses_itemsAt h _ refuses_parameterOf hitems) fun _ _ => ?_
  extract_lets rest
  have hrest : ∀ ret, Refuses (Documented document) (rest ret) := fun _ =>
    .bind (refuses_optionalString h _) fun _ _ => .bind (refuses_flagAt h _) fun _ _ =>
      .bind (refuses_flagAt h _) fun _ _ => .bind (refuses_optionalString h _) fun _ _ => .pure _
  split
  · exact .bind (.pure _) fun _ _ => hrest _
  · exact .bind (.map _ (refuses_typeAt h _)) fun _ _ => hrest _

theorem refuses_bodyAt (kind : String) (h : document.at? place = some (.obj fields)) :
    Refuses (Documented document) (bodyAt place kind fields) := by
  unfold bodyAt
  split
  · exact refuses_functionBody h
  split
  · exact .bind (refuses_fieldsAt _ h) fun _ _ => .bind (refuses_styleAt h _) fun _ _ => .pure _
  split
  · exact .bind (refuses_listAt h _) fun _ hitems =>
      .bind (refuses_itemsAt h _ refuses_variantOf hitems) fun _ _ => .pure _
  · exact .map _ (refuses_typeAt h _)

/-! ### Kinds that no table can be asked for -/

/-- An item whose kind is a list or an object. -/
inductive CompoundKind : Json → Prop where
  | list {fields : Fields} {items : List Json} (kind : Json.field fields "kind" = .arr items) :
      CompoundKind (.obj fields)
  | object {fields inner : Fields} (kind : Json.field fields "kind" = .obj inner) :
      CompoundKind (.obj fields)

theorem itemOf_of_compoundKind (h : CompoundKind v) :
    itemOf place v = .error ⟨place.field "kind", .compoundKind⟩ := by
  cases h with
  | list kind | object kind =>
    unfold itemOf
    simp only [kind]
    rfl

theorem refuses_itemOf (h : document.at? place = some v) (hkind : ¬ CompoundKind v) :
    Refuses (Documented document) (itemOf place v) := by
  unfold itemOf
  split
  · split
    · exact absurd (.list ‹_›) hkind
    · exact absurd (.object ‹_›) hkind
    · split
      · exact refuses_otherOf _ h
      · split
        · exact refuses_field h _ (by simp)
        · refine .bind (refuses_objectAt h) fun fields hfields => ?_
          obtain ⟨hv, -⟩ := objectAt_eq_ok hfields
          obtain rfl := Json.obj.inj hv
          exact .bind (refuses_stringAt h _) fun _ _ => .bind (refuses_visibilityAt h _) fun _ _ =>
            .bind (refuses_stringsAt h _) fun _ _ => .bind (refuses_spanAt h) fun _ _ =>
              .bind (refuses_stringsAt h _) fun _ _ => .bind (refuses_bodyAt _ h) fun _ _ => .pure _
    · exact refuses_field h _ (by simp)
  · exact .refuse ⟨.present h, by simp⟩

end Readers

/-! ### Trees of modules -/

def moduleFields : List String := ["name", "visibility", "items", "children", "span", "x"]

theorem mapM_attach_zipIdx (place : Place) (read : Place → Json → Reading α) (items : List Json) :
    (items.attach.zipIdx.mapM fun x => read (place.item x.2) x.1.val)
      = eachAt place read items := by
  have hzip : items.zipIdx = items.attach.zipIdx.map (Prod.map Subtype.val id) := by
    rw [← List.zipIdx_map, List.attach_map_subtype_val]
  rw [eachAt, hzip, List.mapM_map]
  rfl

/-- The modules inside a module are read as all lists are. -/
theorem ofValue_obj (place : Place) (fields : Fields) : ofValue place (.obj fields) = (do
    let _ ← objectAt place moduleFields (.obj fields)
    let declared ← listAt place fields "items"
    let items ← eachAt (place.field "items") itemOf declared.val
    let inner ← listAt place fields "children"
    let children ← eachAt (place.field "children") ofValue inner.val
    let name ← stringAt place fields "name"
    let visibility ← visibilityAt place fields .everyone
    let span ← spanAt place fields
    pure { name, items, children, visibility, span }) := by
  rw [ofValue]
  simp only [← mapM_attach_zipIdx]
  rfl

/-- Reading a module at a place comes to an item whose kind is a list or an object: the item is the
first of the module that cannot be read, or its items can all be read and the reading of one of the
modules inside it, the first that cannot be read, comes to such an item. -/
inductive Trips : Place → Json → Prop where
  | item {place : Place} {fields : Fields} {before behind : List Json} {v : Json}
    (allowed : Json.unknownFields fields moduleFields = [])
    (items : Json.field? fields "items" = some (.arr (before ++ v :: behind)))
    (readable : Readable (place.field "items") itemOf before) (kind : CompoundKind v) :
      Trips place (.obj fields)
  | child {place : Place} {fields : Fields} {before behind : List Json} {v : Json}
    (allowed : Json.unknownFields fields moduleFields = [])
    (items : ∃ declared, listAt place fields "items" = .ok declared ∧
      Readable (place.field "items") itemOf declared.val)
    (children : Json.field? fields "children" = some (.arr (before ++ v :: behind)))
    (readable : Readable (place.field "children") ofValue before)
    (inside : Trips ((place.field "children").item before.length) v) : Trips place (.obj fields)

section Tree

variable {document : Json} {place : Place} {fields : Fields} {v : Json}

theorem objectAt_of_allowed {allowed : List String} (h : Json.unknownFields fields allowed = []) :
    objectAt place allowed (.obj fields) = .ok fields := by
  unfold objectAt
  simp only [h]
  rfl

theorem exists_listAt (place : Place) {key : String} {items : List Json}
    (h : Json.field? fields key = some (.arr items)) :
    ∃ read, listAt place fields key = .ok read ∧ read.val = items := by
  refine ⟨⟨items, fun _ hv => Json.sizeOf_item_lt h hv⟩, ?_, rfl⟩
  unfold listAt
  split
  · simp_all
  · rename_i items' h'
    obtain rfl : items = items' := by simpa [h] using h'
    rfl
  · rename_i value hne h'
    exact absurd (Option.some.inj (h'.symm.trans h)) (hne items)

theorem ofValue_of_item {before behind : List Json}
    (allowed : Json.unknownFields fields moduleFields = [])
    (items : Json.field? fields "items" = some (.arr (before ++ v :: behind)))
    (readable : Readable (place.field "items") itemOf before) (kind : CompoundKind v) :
    ofValue place (.obj fields)
      = .error ⟨((place.field "items").item before.length).field "kind", .compoundKind⟩ := by
  obtain ⟨declared, hdeclared, hitems⟩ := exists_listAt place items
  rw [ofValue_obj, bind_of_eq (objectAt_of_allowed allowed), bind_of_eq hdeclared, hitems,
    eachAt_of_error readable (itemOf_of_compoundKind kind)]
  rfl

/-- What is tripped over is refused, but not as documented. -/
theorem error_of_trips (h : Trips place v) :
    ∃ kindPlace, ofValue place v = .error ⟨kindPlace, .compoundKind⟩ := by
  induction h with
  | item allowed items readable kind => exact ⟨_, ofValue_of_item allowed items readable kind⟩
  | @child place fields before behind v allowed items children readable inside ih =>
    obtain ⟨declared, hdeclared, hreadable⟩ := items
    obtain ⟨ds, hds⟩ := exists_eachAt hreadable
    obtain ⟨inner, hinner, hchildren⟩ := exists_listAt place children
    obtain ⟨kindPlace, herror⟩ := ih
    refine ⟨kindPlace, ?_⟩
    rw [ofValue_obj, bind_of_eq (objectAt_of_allowed allowed), bind_of_eq hdeclared, bind_of_eq hds,
      bind_of_eq hinner, hchildren, eachAt_of_error readable herror]
    rfl

/-- What is not tripped over is refused as documented, if it is refused. -/
theorem refuses_ofValue {document : Json} {place : Place} {v : Json}
    (h : document.at? place = some v) (htrips : ¬ Trips place v) :
    Refuses (Documented document) (ofValue place v) := by
  -- A list is refused for the first of its items that cannot be read, and if that one is tripped
  -- over, so is the module. The modules inside are smaller than the module.
  cases v with
  | obj fields =>
    rw [ofValue_obj]
    refine .bind (refuses_objectAt h) fun fields' hfields => ?_
    obtain ⟨hobj, hallowed⟩ := objectAt_eq_ok hfields
    obtain rfl := Json.obj.inj hobj
    refine .bind (refuses_listAt h _) fun declared hdeclared => ?_
    refine .bind (.eachAt fun before v behind hval hread => ?_) fun items hitems => ?_
    · refine refuses_itemOf (at?_of_listAt h hdeclared hval) fun hkind => htrips ?_
      exact .item hallowed (field?_of_listAt hdeclared hval) hread hkind
    refine .bind (refuses_listAt h _) fun inner hinner => ?_
    refine .bind (.eachAt fun before child behind hval hread => ?_) fun _ _ =>
      .bind (refuses_stringAt h _) fun _ _ => .bind (refuses_visibilityAt h _) fun _ _ =>
        .bind (refuses_spanAt h) fun _ _ => .pure _
    have hsmaller : sizeOf child < sizeOf fields := inner.property child (by rw [hval]; simp)
    refine refuses_ofValue (at?_of_listAt h hinner hval) fun hinside => htrips ?_
    refine .child hallowed ⟨declared, hdeclared, ?_⟩ (field?_of_listAt hinner hval) hread hinside
    exact readable_of_eachAt hitems
  | null | bool _ | int _ | float _ | str _ | arr _ =>
    unfold ofValue
    exact .refuse ⟨.present h, by simp⟩
termination_by sizeOf v
decreasing_by
  subst_vars
  simp only [Json.obj.sizeOf_spec]
  omega

end Tree

/-! ### Documents -/

/-- The document is one of a module, and reading the module comes to an item whose kind is a list or
an object. -/
inductive DocumentTrips : Json → Prop where
  | root {top : Fields} {v : Json}
    (allowed : Json.unknownFields top ["format", "version", "module", "x"] = [])
    (format : (Json.field top "format").string? = some formatName)
    (version : (Json.field top "version").isZero = true)
    (module : Json.field? top "module" = some v)
    (trips : Trips (Place.root.field "module") v) : DocumentTrips (.obj top)

variable {document : Json}

theorem ofDocument_of_module {top : Fields} {v : Json}
    (allowed : Json.unknownFields top ["format", "version", "module", "x"] = [])
    (format : (Json.field top "format").string? = some formatName)
    (version : (Json.field top "version").isZero = true)
    (module : Json.field? top "module" = some v) :
    ofDocument (.obj top) = ofValue (Place.root.field "module") v := by
  unfold ofDocument
  rw [bind_of_eq (objectAt_of_allowed allowed), if_neg (by simp [format, version])]
  simp only [module]

theorem error_of_documentTrips (h : DocumentTrips document) :
    ∃ place, ofDocument document = .error ⟨place, .compoundKind⟩ := by
  cases h with
  | root allowed format version module trips =>
    rw [ofDocument_of_module allowed format version module]
    exact error_of_trips trips

theorem refuses_ofDocument (h : ¬ DocumentTrips document) :
    Refuses (Documented document) (ofDocument document) := by
  have hroot : document.at? .root = some document := rfl
  refine .bind (refuses_objectAt hroot) fun top htop => ?_
  obtain ⟨rfl, hallowed⟩ := objectAt_eq_ok htop
  split
  · exact .refuse ⟨.present hroot, by simp⟩
  rename_i hheader
  split
  · exact refuses_field hroot _ (by simp)
  · rename_i v hmodule
    rw [not_or, not_not, Bool.not_eq_false] at hheader
    refine refuses_ofValue ((Json.at?_field hroot).trans hmodule) fun htrips => h ?_
    exact .root hallowed hheader.1 hheader.2 hmodule htrips

/-- Loading a document fails in its documented way only, with a refusal at a place of the document
or at that of a field which an object of it has not, unless it comes to an item whose kind is a list
or an object. -/
theorem fails_as_documented_iff (document : Json) :
    ((∃ module, ofDocument document = .ok module)
        ∨ ∃ f, ofDocument document = .error f ∧ Documented document f)
      ↔ ¬ DocumentTrips document := by
  constructor
  · rintro h htrips
    obtain ⟨place, herror⟩ := error_of_documentTrips htrips
    rcases h with ⟨module, hok⟩ | ⟨f, hf, hdocumented⟩
    · cases herror.symm.trans hok
    · obtain rfl := Except.error.inj (herror.symm.trans hf)
      exact hdocumented.refusal rfl
  · intro h
    have hrefuses := refuses_ofDocument h
    cases hresult : ofDocument document with
    | ok module => exact .inl ⟨module, rfl⟩
    | error f => exact .inr ⟨f, rfl, hrefuses f hresult⟩

/-- A module with an item whose kind is an empty list. -/
def listed : Json :=
  .obj [("format", .str formatName), ("version", .int 0),
    ("module", .obj [("name", .str "crate"), ("items", .arr [.obj [("kind", .arr [])]])])]

/-- The document of such a module is neither a module nor refused as documented. -/
theorem undocumented_of_listed :
    ofDocument listed = .error ⟨((Place.root.field "module" |>.field "items").item 0).field "kind",
        .compoundKind⟩
      ∧ ¬ ((∃ module, ofDocument listed = .ok module)
        ∨ ∃ f, ofDocument listed = .error f ∧ Documented listed f) := by
  have hitems : Json.field? [("name", .str "crate"), ("items", .arr [.obj [("kind", .arr [])]])]
      "items" = some (.arr ([] ++ .obj [("kind", .arr [])] :: [])) := rfl
  have herror : ofDocument listed = .error
      ⟨((Place.root.field "module" |>.field "items").item 0).field "kind", .compoundKind⟩ :=
    (ofDocument_of_module (by simp [Json.unknownFields]) rfl rfl rfl).trans <|
      ofValue_of_item (by simp [Json.unknownFields, moduleFields]) hitems (by simp [Readable])
        (.list rfl)
  refine ⟨herror, ?_⟩
  rw [herror]
  rintro (⟨module, ⟨⟩⟩ | ⟨f, ⟨⟩, hdocumented⟩)
  exact hdocumented.refusal rfl

end NativeModule

end Crossing
