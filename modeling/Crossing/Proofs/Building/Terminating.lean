import Mathlib
import Crossing.Proofs.Building.Answer
import Crossing.Proofs.Building.Further

/-!
# Building ends

What stands in a declaration and is not cut off leads along an edge of the graph of the nominal types
to the next declaration (`Standing`, `mentions_of_expands`). On a cycle of the graph that edge is one
by value, so a declaration that could be expanded inside its own expansion is of infinite size, and
such a one never is expanded (`not_expands_cycle`). So building ends in every module where no buffer
struct is entered again inside its own elements (`building_ends`).
-/

namespace Crossing

open Relation (TransGen ReflTransGen)

namespace Building

variable {m : TypeModel}

theorem NominalIndex.mem_edges {index : NominalIndex} {n : Nominal} {e : TypeExpr}
    {x : String × Via} (he : e ∈ n.types)
    (hx : x ∈ index.mentions index.aliases n.scope .value e) : x ∈ index.edges n :=
  List.mem_flatMap.2 ⟨e, he, hx⟩

/-- An expression at a place stands in the declaration `n`: what it mentions is mentioned by `n`, or by
a buffer struct that mentions lead to from `n`. By value it stands in `n` only. -/
structure Standing (m : TypeModel) (n : Nominal) (s : Site) (e : TypeExpr) : Prop where
  owner : s.owner = some n.name
  nodup : s.unopened.Nodup
  mentioned : ∃ source ∈ m.index.nominals, source.isAlias = false ∧
    ReflTransGen m.index.Mentions n source ∧ ∃ via,
      m.index.mentions s.unopened s.scope via e ⊆ m.index.edges source ∧
        (s.via = .value → source = n ∧ via = .value)

namespace Standing

variable {n : Nominal} {s : Site} {e : TypeExpr}

theorem mentions_aliases {unopened scope : List String} {via : Via} (h : unopened.Nodup) :
    m.index.mentions unopened scope via e ⊆ m.index.mentions m.index.aliases scope via e :=
  fun _ hx => NominalIndex.mentions_mono h (fun _ hname _ => hname) hx

theorem begin (hnodup : m.index.names.Nodup) (hn : n ∈ m.index.nominals)
    (halias : n.isAlias = false) (he : e ∈ n.types) : Standing m n (m.inner n) e :=
  ⟨rfl, hnodup, n, hn, halias, .refl, .value,
    fun _ hx => NominalIndex.mem_edges he (mentions_aliases hnodup hx), fun _ => ⟨rfl, rfl⟩⟩

theorem inward (h : Standing m n s e) {via : Via} {u : TypeExpr}
    (hinward : m.Inward s.scope e via u) : Standing m n (s.inside via) u := by
  obtain ⟨source, hsource, halias, hleads, v, hmentions, hvalue⟩ := h.mentioned
  obtain ⟨v', hsub, hv'⟩ := hinward s.unopened v
  refine ⟨h.owner, h.nodup, source, hsource, halias, hleads, v',
    fun x hx => hmentions (hsub hx), ?_⟩
  intro hvia
  have hboth : via = .value ∧ s.via = .value := by
    cases via <;> simp_all [Site.inside, h.owner]
  obtain ⟨rfl, rfl⟩ := hvalue hboth.2
  exact ⟨rfl, hv' hboth.1⟩

/-- The mention of a struct or an enumeration. -/
theorem uses (h : Standing m n s e) {b : Nominal}
    (hb : (m.index.resolve e.names s.scope).nominal? = some b) (halias : b.isAlias = false) :
    ∃ source via, ReflTransGen m.index.Mentions n source ∧ m.index.Uses via source b ∧
      (s.via = .value → source = n ∧ via = .value) := by
  obtain ⟨source, hsource, hproper, hleads, via, hmentions, hvalue⟩ := h.mentioned
  have htarget : b.aliasTarget? = none := by simpa [Nominal.isAlias] using halias
  exact ⟨source, via, hleads, ⟨hsource, hproper, NominalIndex.resolve_mem hb, halias,
    hmentions (NominalIndex.mem_mentions_self hb htarget)⟩, hvalue⟩

theorem enter (h : Standing m n s e) {b : Nominal} {element : TypeExpr} {mutable : Bool}
    (hb : (m.index.resolve e.names s.scope).nominal? = some b)
    (helements : Rule.elements? b = some (element, mutable)) :
    Standing m n (TypeModel.enter s b) element := by
  have halias : b.isAlias = false := by
    rw [Nominal.isAlias, Rule.aliasTarget?_of_elements helements]
    rfl
  obtain ⟨source, via, hleads, huses, -⟩ := h.uses hb halias
  refine ⟨h.owner, h.nodup, b, huses.target_mem, halias, hleads.tail ⟨via, huses⟩, .pointer, ?_,
    by simp [TypeModel.enter]⟩
  intro x hx
  refine NominalIndex.mem_edges (Rule.pointer_mem_of_elements helements) ?_
  exact NominalIndex.mem_mentions_of_inside (List.mem_singleton_self _) (mentions_aliases h.nodup hx)

theorem openAlias (h : Standing m n s e) {b : Nominal} {target : TypeExpr}
    (hb : (m.index.resolve e.names s.scope).nominal? = some b)
    (htarget : b.aliasTarget? = some target) (hopen : b.name ∈ s.unopened) :
    Standing m n (m.openAlias s b) target := by
  obtain ⟨source, hsource, halias, hleads, via, hmentions, hvalue⟩ := h.mentioned
  exact ⟨h.owner, h.nodup.erase _, source, hsource, halias, hleads, via,
    fun x hx => hmentions (NominalIndex.mem_mentions_of_alias hb htarget hopen hx), hvalue⟩

/-- What stands in a declaration is followed by what stands there too, or else a declaration begins. -/
theorem step (h : Standing m n s e) {part : Task} (hstep : Task.Step m s e part) :
    (∃ s' u, part = .follow s' (m.recipe s'.scope u) ∧ Standing m n s' u) ∨
      ∃ b, part = .contents b ∧ (m.index.resolve e.names s.scope).nominal? = some b ∧
        m.TakenWhole s b := by
  cases hstep with
  | inward _ hinward => exact .inl ⟨_, _, rfl, h.inward hinward⟩
  | enter meaning elements => exact .inl ⟨_, _, rfl, h.enter meaning elements⟩
  | opened meaning aliased isUnopened =>
    exact .inl ⟨_, _, rfl, h.openAlias meaning aliased isUnopened⟩
  | expanded meaning taken => exact .inr ⟨_, rfl, meaning, taken⟩

end Standing

/-- The contents of `b` are built on the way through those of `a`, with no declaration in between. -/
def Expands (m : TypeModel) (a b : Nominal) : Prop :=
  a ∈ m.index.nominals ∧ a.isAlias = false ∧ ∃ task, (Task.contents b).Below m task ∧
    ReflTransGen (fun task part => Task.Further m part task) (.contents a) task

section Expands

variable (hnodup : m.index.names.Nodup) {a b : Nominal}
include hnodup

theorem standing_of_leads (ha : a ∈ m.index.nominals) (halias : a.isAlias = false) {task : Task}
    (h : ReflTransGen (fun task part => Task.Further m part task) (.contents a) task) :
    task = .contents a ∨ ∃ s e, task = .follow s (m.recipe s.scope e) ∧ Standing m a s e := by
  induction h with
  | refl => exact .inl rfl
  | tail _ hfurther ih =>
    obtain ⟨hbelow, s', e', rfl⟩ := hfurther
    obtain rfl | ⟨s, e, rfl, hstanding⟩ := ih
    · obtain ⟨e, he, heq⟩ := Task.below_contents.1 hbelow
      exact .inr ⟨_, e, heq.symm, .begin hnodup ha halias he⟩
    · refine .inr ((hstanding.step (Task.step_of_below hbelow)).resolve_right ?_)
      rintro ⟨b, hb, -⟩
      simp at hb

/-- A declaration that is expanded is mentioned, and by value where it recurs. -/
theorem uses_of_expands (h : Expands m a b) :
    b.name ∉ m.graph.valueCyclic ∧ ∃ source via, ReflTransGen m.index.Mentions a source ∧
      m.index.Uses via source b ∧
        (m.graph.sameRecursive a.name b.name = true → source = a ∧ via = .value) := by
  obtain ⟨ha, halias, task, hbelow, hleads⟩ := h
  obtain rfl | ⟨s, e, rfl, hstanding⟩ := standing_of_leads hnodup ha halias hleads
  · obtain ⟨e, -, heq⟩ := Task.below_contents.1 hbelow
    simp at heq
  · obtain ⟨s', u, hfollow, -⟩ | ⟨b', hcontents, hmeaning, htaken⟩ :=
      hstanding.step (Task.step_of_below hbelow)
    · simp at hfollow
    · obtain rfl := Task.contents.inj hcontents
      obtain ⟨source, via, hleads, huses, hvalue⟩ := hstanding.uses hmeaning htaken.isType
      exact ⟨htaken.finite, source, via, hleads, huses,
        fun hrec => hvalue (htaken.recurs _ hstanding.owner hrec)⟩

theorem mentions_of_expands (h : Expands m a b) : TransGen m.index.Mentions a b := by
  obtain ⟨-, source, via, hleads, huses, -⟩ := uses_of_expands hnodup h
  exact .tail' hleads ⟨via, huses⟩

variable (hgraph : m.graph = .ofIndex m.index)
include hgraph

/-- Where mentions lead back, a declaration is expanded at a mention by value. -/
theorem uses_value_of_expands (h : Expands m a b) (hback : ReflTransGen m.index.Mentions b a) :
    m.index.Uses .value a b := by
  obtain ⟨-, source, via, hleads, huses, hvalue⟩ := uses_of_expands hnodup h
  have hrec : m.graph.sameRecursive a.name b.name = true := by
    rw [hgraph]
    exact NominalGraph.sameRecursive_of_cycle hnodup (.tail' hleads ⟨via, huses⟩) hback
  obtain ⟨rfl, rfl⟩ := hvalue hrec
  exact huses

theorem not_expands_cycle (a : Nominal) : ¬ TransGen (Expands m) a a := by
  intro hcycle
  have hmentions : ∀ {a b}, TransGen (Expands m) a b → TransGen m.index.Mentions a b :=
    fun h => TransGen.trans_induction_on h (mentions_of_expands hnodup) fun _ _ h h' => h.trans h'
  -- Along the cycle, every declaration mentions the next by value, since mentions lead back to it.
  have huses : ∀ {b}, TransGen (Expands m) a b → ReflTransGen m.index.Mentions b a →
      TransGen (m.index.Uses .value) a b := by
    intro b hab
    induction hab with
    | single h => exact fun hback => .single (uses_value_of_expands hnodup hgraph h hback)
    | tail hab h ih =>
      intro hback
      have hnext := (mentions_of_expands hnodup h).to_reflTransGen
      exact (ih (hnext.trans hback)).tail
        (uses_value_of_expands hnodup hgraph h (hback.trans (hmentions hab).to_reflTransGen))
  obtain ⟨_, -, hlast⟩ := TransGen.tail'_iff.1 hcycle
  have hfinite := (uses_of_expands hnodup hlast).1
  rw [hgraph] at hfinite
  exact hfinite (NominalGraph.mem_valueCyclic_of_cycle hnodup (huses hcycle .refl))

theorem wellFounded_expands : WellFounded fun b a => Expands m a b := by
  refine wellFounded_of_acyclic m.index.nominals (fun b a h => ⟨?_, h.1⟩)
    fun n h => not_expands_cycle hnodup hgraph n (Relation.transGen_swap.1 h)
  obtain ⟨-, source, via, -, huses, -⟩ := uses_of_expands hnodup h
  exact huses.target_mem

end Expands

namespace Task

variable (hnodup : m.index.names.Nodup) (hgraph : m.graph = .ofIndex m.index)
  (hchain : ∀ n, ¬ TransGen m.index.Enters n n)
include hchain

/-- There is an end to an expression where there is one to the declarations that it goes on to. -/
theorem acc_of_contents {s : Site} {e : TypeExpr}
    (h : ∀ task b, (Task.contents b).Below m task →
      ReflTransGen (fun task part => Further m part task) (.follow s (m.recipe s.scope e)) task →
        Acc (Below m) (.contents b)) :
    Acc (Below m) (.follow s (m.recipe s.scope e)) := by
  have hacc := acc_further hchain s e
  generalize Task.follow s (m.recipe s.scope e) = task at h hacc
  induction hacc with
  | intro task _ ih =>
    refine .intro _ fun part hpart => ?_
    obtain ⟨s', e', rfl⟩ | ⟨b, rfl⟩ := eq_of_below hpart
    · have hfurther : Further m (.follow s' (m.recipe s'.scope e')) task := ⟨hpart, s', e', rfl⟩
      exact ih _ hfurther fun task' b hb hleads => h task' b hb (.head hfurther hleads)
    · exact h _ b hpart .refl

include hnodup hgraph

theorem acc_contents {n : Nominal} (hn : n ∈ m.index.nominals) (halias : n.isAlias = false) :
    Acc (Below m) (.contents n) := by
  induction n using (wellFounded_expands hnodup hgraph).induction with
  | _ n ih =>
    refine .intro _ fun part hpart => ?_
    obtain ⟨e, he, rfl⟩ := below_contents.1 hpart
    have hfirst : Further m (.follow (m.inner n) (m.recipe n.scope e)) (.contents n) :=
      ⟨hpart, m.inner n, e, rfl⟩
    refine acc_of_contents (s := m.inner n) hchain fun task b hb hleads => ?_
    have hexpands : Expands m n b := ⟨hn, halias, task, hb, .head hfirst hleads⟩
    obtain ⟨-, source, via, -, huses, -⟩ := uses_of_expands hnodup hexpands
    exact ih b hexpands huses.target_mem huses.target_alias

/-- There is an end to every task. -/
theorem wellFounded_below : WellFounded (Below m) := by
  have hfollow : ∀ s e, Acc (Below m) (.follow s (m.recipe s.scope e)) := by
    intro s e
    refine acc_of_contents hchain fun task b hb hleads => ?_
    obtain ⟨s', e', rfl⟩ : ∃ s e, task = .follow s (m.recipe s.scope e) := by
      rcases hleads.cases_tail with rfl | ⟨_, -, hlast⟩
      · exact ⟨s, e, rfl⟩
      · exact hlast.2
    cases step_of_below hb with
    | expanded meaning taken =>
      exact acc_contents hnodup hgraph hchain (NominalIndex.resolve_mem meaning) taken.isType
  have hcontents : ∀ n, Acc (Below m) (.contents n) := fun n => .intro _ fun part hpart => by
    obtain ⟨e, -, rfl⟩ := below_contents.1 hpart
    exact hfollow (m.inner n) e
  refine ⟨fun task => .intro _ fun part hpart => ?_⟩
  obtain ⟨s, e, rfl⟩ | ⟨n, rfl⟩ := eq_of_below hpart
  · exact hfollow s e
  · exact hcontents n

end Task

end Building

open Building

/-- In a module without a chain of buffer structs that leads back to its first, each mentioned in the
element type of the one before, building ends: no task has parts of parts without end, and, whatever
was built before, a builder never finds that a declaration needs itself, neither for an expression,
wherever it stands, nor for an item. -/
theorem building_ends (module : NativeModule) (wordBits : Int)
    (hchain : ∀ n, ¬ TransGen (NominalIndex.ofModule module).Enters n n) :
    let m := TypeModel.ofModule module wordBits .standard
    WellFounded (Task.Below m) ∧ ∀ items name,
      (∀ scope owner via isDeclaration e,
        ((Builder.build m { m.site scope with owner, via, isDeclaration } e).run.run
          (Builder.after m items)).1 ≠ .error (.endless name)) ∧
      ∀ item, ((Builder.buildItem m item).run.run (Builder.after m items)).1
        ≠ .error (.endless name) := by
  intro m
  have hnodup : m.index.names.Nodup := NominalIndex.nodup_names_ofModule module
  have hends : WellFounded (Task.Below m) := Task.wellFounded_below hnodup rfl hchain
  have hfinite : ∀ {α : Type} {r : Except Fault α} {task : Task} {name : String},
      OnFailure (task.DoomedBy m) r → r ≠ .error (.endless name) := by
    rintro α r task name h rfl
    exact Task.endless_iff.1 h (hends.apply task)
  refine ⟨hends, fun items name => ⟨fun scope owner via isDeclaration e => ?_, fun item => ?_⟩⟩
  · have hfaithful := Builder.faithful_after hnodup items
    have hmake := Builder.keeps_make_failure hnodup _ _ (TypeModel.regular_recipe scope e)
      (.begin scope owner via isDeclaration)
    exact hfinite ((Builder.keeps_meaning hmake).run hfaithful).1
  · have hfaithful := Builder.faithful_after hnodup items
    exact hfinite ((Builder.keeps_buildItem_answer hnodup item).run hfaithful).1.2

/-- The name of a buffer struct, with the names that its element type mentions. -/
def NominalIndex.bufferMentions? (index : NominalIndex) (n : Nominal) :
    Option (String × List String) :=
  (Rule.elements? n).map fun (element, _) =>
    (n.name, (index.mentions [] n.scope .sequence element).map (·.1))

/-- The buffer structs of an index with what their element types mention. -/
def NominalIndex.bufferMentions (index : NominalIndex) : List (String × List String) :=
  index.nominals.filterMap index.bufferMentions?

theorem NominalIndex.mem_bufferMentions {index : NominalIndex} {n : Nominal}
    (hn : n ∈ index.nominals) {element : TypeExpr} {mutable : Bool}
    (helements : Rule.elements? n = some (element, mutable)) :
    (n.name, (index.mentions [] n.scope .sequence element).map (·.1)) ∈ index.bufferMentions :=
  List.mem_filterMap.2 ⟨n, hn, Option.map_eq_some_iff.2 ⟨_, helements, rfl⟩⟩

theorem NominalIndex.Enters.listed {index : NominalIndex} {a b : Nominal} (h : index.Enters a b) :
    ∃ mentioned, (a.name, mentioned) ∈ index.bufferMentions ∧ b.name ∈ mentioned ∧
      b.name ∈ index.bufferMentions.map (·.1) := by
  obtain ⟨element, mutable, helements, via, hmention⟩ := h.elements
  obtain ⟨_, htarget⟩ := Option.isSome_iff_exists.1 h.target_elements
  exact ⟨_, mem_bufferMentions h.source_mem helements, List.mem_map_of_mem hmention,
    List.mem_map_of_mem (mem_bufferMentions h.target_mem htarget)⟩

section Examples

def bufferOf (element : String) : DeclarationBody :=
  .struct [⟨some "ptr", .pointer false (.ofNames [element]), .everyone⟩,
    ⟨some "len", .ofNames ["usize"], .everyone⟩] .named

/-- Nodes that hold themselves in boxes, through an alias, and in rows of buffers. -/
def linkedNodes : NativeModule where
  name := "crate"
  items :=
    [⟨"Link", .everyone, [], [], {}, .alias (.path [.plain "Box" [.ofNames ["Node"]] [] []])⟩,
      ⟨"Node", .everyone, [], [], {}, .struct
        [⟨some "next", .ofNames ["Link"], .everyone⟩, ⟨some "rows", .ofNames ["Rows"], .everyone⟩]
        .named⟩,
      ⟨"Rows", .everyone, [], [], {}, bufferOf "Row"⟩,
      ⟨"Row", .everyone, [], [], {}, bufferOf "Node"⟩]
  children := []
  visibility := .everyone
  span := {}

theorem bufferMentions_linkedNodes : (NominalIndex.ofModule linkedNodes).bufferMentions
    = [("crate::Rows", ["crate::Row"]), ("crate::Row", ["crate::Node"])] := by
  cbv

theorem enters_linkedNodes {a b : Nominal} (h : (NominalIndex.ofModule linkedNodes).Enters a b) :
    a.name = "crate::Rows" ∧ b.name = "crate::Row" := by
  obtain ⟨mentioned, ha, hmention, hb⟩ := h.listed
  rw [bufferMentions_linkedNodes] at ha hb
  simp only [List.mem_cons, Prod.mk.injEq, List.not_mem_nil, or_false, List.map_cons, List.map_nil]
    at ha hb
  rcases ha with ⟨hname, rfl⟩ | ⟨-, rfl⟩
  · exact ⟨hname, List.mem_singleton.1 hmention⟩
  · rw [List.mem_singleton.1 hmention] at hb
    simp at hb

/-- The rows lead to a row, which is the end of the chain. -/
theorem building_ends_linkedNodes :
    (∀ n, ¬ TransGen (NominalIndex.ofModule linkedNodes).Enters n n) ∧
      WellFounded (Task.Below (.ofModule linkedNodes 64 .standard)) := by
  have hchain : ∀ n, ¬ TransGen (NominalIndex.ofModule linkedNodes).Enters n n := by
    intro n h
    obtain ⟨_, hfirst, -⟩ := TransGen.head'_iff.1 h
    obtain ⟨_, -, hlast⟩ := TransGen.tail'_iff.1 h
    have hname := (enters_linkedNodes hfirst).1.symm.trans (enters_linkedNodes hlast).2
    simp at hname
  exact ⟨hchain, (building_ends linkedNodes 64 hchain).1⟩

end Examples

end Crossing
