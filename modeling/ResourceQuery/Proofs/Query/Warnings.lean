import ResourceQuery.Log
import ResourceQuery.Proofs.Query.Canonical
import ResourceQuery.Proofs.Relationship.Grammar

/-!
# Warnings of a program

A program warns of the names in compact form that it gives a scope, at every depth: its warnings are
those about the relationships of its query, one after the other (`QueryOp.warnings_eq_flatMap`). So
no such name has a colon or a comma in it if the log tells of no ambiguous name. Whether a compact
form is read as it was meant depends on more than that, which no warning tells of: the name may be
empty, and a column may be empty or have a comma in it (`QueryOp.silentlyMisread_scopes`). Main
statement: what is left to look at when the log tells of no ambiguous name
(`QueryOp.readsBack_of_silent`).
-/

set_option autoImplicit false

namespace ResourceQuery

/-! ## Warnings about relationships -/

/-- The warnings about a relationship itself: those about its name if it has a scope in compact
form. -/
def Relationship.ownWarnings : Relationship → List QueryWarning
  | .scoped name _ => nameWarnings name
  | _ => []

namespace Relationship

theorem families_eq_flatMap (related : List Relationship) :
    families related = related.flatMap family := by
  induction related with
  | nil => rw [families, List.flatMap_nil]
  | cons relationship rest ih => rw [families, ih, List.flatMap_cons]

theorem families_append_singleton (related : List Relationship) (relationship : Relationship) :
    families (related ++ [relationship]) = families related ++ relationship.family := by
  rw [families_eq_flatMap, families_eq_flatMap, List.flatMap_append, List.flatMap_singleton]

end Relationship

namespace QueryBuilder

/-- The query of a builder includes the relationships of the builder. -/
theorem included_build (builder : QueryBuilder) :
    Query.included builder.build = Relationship.families builder.relationships := by
  obtain ⟨columns, filters, relationships, warnings⟩ := builder
  cases relationships with
  | nil => simp [build, nonEmpty?, Query.included, Relationship.families]
  | cons relationship rest => simp [build, nonEmpty?, Query.included]

/-- The warnings of a builder are those about its relationships. -/
def Warned (builder : QueryBuilder) : Prop :=
  builder.warnings
    = (Relationship.families builder.relationships).flatMap Relationship.ownWarnings

theorem Warned.relate {builder : QueryBuilder} (h : builder.Warned) {relationship : Relationship}
    {warnings : List QueryWarning}
    (hwarnings : warnings = relationship.family.flatMap Relationship.ownWarnings) :
    (builder.relate relationship warnings).Warned := by
  rw [Warned, QueryBuilder.relate, Relationship.families_append_singleton, List.flatMap_append,
    ← hwarnings, ← h]

/-- A relationship with the query of a builder has the warnings of that builder, and those about its
own name if it is kept in compact form. -/
theorem Warned.queryWarnings {scope : QueryBuilder} (h : scope.Warned) (name : String) :
    scope.warnings ++ Relationship.queryWarnings name scope.build
      = (Relationship.ofQuery name scope.build).family.flatMap Relationship.ownWarnings := by
  by_cases honly : Query.ColumnsOnly scope.build
  · obtain ⟨columns, heq⟩ := Query.columnsOnly_iff.mp honly
    -- a query with columns only includes nothing to warn of
    have hnone : scope.warnings = [] := by
      rw [h, ← included_build, heq, Query.included, List.flatMap_nil]
    rw [hnone, heq, Relationship.ofQuery_columnsOnly, Relationship.family, List.flatMap_singleton]
    rfl
  · obtain ⟨hentry, hnone⟩ := Relationship.ofQuery_of_not honly name
    rw [hentry, hnone, Relationship.family, List.flatMap_cons, included_build, ← h,
      List.append_nil]
    rfl

end QueryBuilder

namespace QueryOp

theorem warned_apply (op : QueryOp) {builder : QueryBuilder} (h : builder.Warned) :
    (op.apply builder).Warned := by
  induction op using QueryOp.induction generalizing builder with
  | select columns => exact h
  | filter op => exact h
  | related name => exact h.relate (by rw [Relationship.family]; rfl)
  | relatedColumns name columns =>
      exact h.relate (by rw [Relationship.family, List.flatMap_singleton]; rfl)
  | relatedQuery name ops ih =>
      -- the inner builder starts without relationships or warnings
      have hscope : (applyAll .empty ops).Warned :=
        applyAll_induction (fun op hop _ => ih op hop) (by rw [QueryBuilder.Warned]; rfl)
      exact h.relate (hscope.queryWarnings name)
  | when holds ops ih =>
      rw [apply]
      split
      · exact applyAll_induction (fun op hop _ => ih op hop) h
      · exact h

/-- **The warnings of a program** are those about the relationships of its query, at every depth and
in their order. -/
theorem warnings_eq_flatMap (ops : List QueryOp) :
    (run ops).warnings = (Query.included (run ops).build).flatMap Relationship.ownWarnings := by
  have hempty : QueryBuilder.empty.Warned := by rw [QueryBuilder.Warned]; rfl
  have hrun : (run ops).Warned := applyAll_induction (fun op _ _ => op.warned_apply) hempty
  rw [QueryBuilder.included_build]
  exact hrun

/-! ## Programs without names alone -/

mutual

/-- Whether a step includes a resource by its name alone, at any depth. -/
def includesBare : QueryOp → Bool
  | .related _ => true
  | .relatedQuery _ ops => anyIncludesBare ops
  | .when _ ops => anyIncludesBare ops
  | .select _ => false
  | .filter _ => false
  | .relatedColumns _ _ => false

def anyIncludesBare : List QueryOp → Bool
  | [] => false
  | op :: rest => includesBare op || anyIncludesBare rest

end

theorem anyIncludesBare_eq_false_iff {ops : List QueryOp} :
    anyIncludesBare ops = false ↔ ∀ op ∈ ops, op.includesBare = false := by
  induction ops with
  | nil => simp [anyIncludesBare]
  | cons op rest ih => simp [anyIncludesBare, ih]

end QueryOp

/-- No relationship of a builder is a name alone, at any depth. -/
def QueryBuilder.NoneBare (builder : QueryBuilder) : Prop :=
  ∀ name, .bare name ∉ Relationship.families builder.relationships

namespace QueryBuilder

theorem NoneBare.relate {builder : QueryBuilder} (h : builder.NoneBare)
    {relationship : Relationship} (hfamily : ∀ name, .bare name ∉ relationship.family)
    (warnings : List QueryWarning) : (builder.relate relationship warnings).NoneBare := by
  intro name
  rw [QueryBuilder.relate, Relationship.families_append_singleton, List.mem_append, not_or]
  exact ⟨h name, hfamily name⟩

/-- A relationship with the query of a builder includes what the builder does. -/
theorem NoneBare.ofQuery {scope : QueryBuilder} (h : scope.NoneBare) (name name' : String) :
    .bare name' ∉ (Relationship.ofQuery name scope.build).family := by
  rcases Relationship.ofQuery_cases name scope.build with ⟨columns, -, heq⟩ | heq
  · rw [heq, Relationship.family, List.mem_singleton]
    exact Relationship.noConfusion
  · rw [heq, Relationship.family, included_build, List.mem_cons, not_or]
    exact ⟨Relationship.noConfusion, h name'⟩

end QueryBuilder

namespace QueryOp

theorem noneBare_apply {op : QueryOp} (hop : op.includesBare = false) {builder : QueryBuilder}
    (h : builder.NoneBare) : (op.apply builder).NoneBare := by
  induction op using QueryOp.induction generalizing builder with
  | select columns => exact h
  | filter op => exact h
  | related name =>
      rw [includesBare] at hop
      cases hop
  | relatedColumns name columns =>
      refine h.relate (fun name' => ?_) _
      rw [Relationship.family, List.mem_singleton]
      exact Relationship.noConfusion
  | relatedQuery name ops ih =>
      rw [includesBare, anyIncludesBare_eq_false_iff] at hop
      have hscope : (applyAll .empty ops).NoneBare :=
        applyAll_induction (fun op hmem _ => ih op hmem (hop op hmem))
          fun _ => by rw [QueryBuilder.empty, Relationship.families]; exact List.not_mem_nil
      exact h.relate (hscope.ofQuery name) _
  | when holds ops ih =>
      rw [includesBare, anyIncludesBare_eq_false_iff] at hop
      rw [apply]
      split
      · exact applyAll_induction (fun op hmem _ => ih op hmem (hop op hmem)) h
      · exact h

/-- A program that includes nothing by its name alone builds no such relationship. -/
theorem bare_notMem_included {ops : List QueryOp} (h : anyIncludesBare ops = false)
    (name : String) : .bare name ∉ Query.included (run ops).build := by
  have hrun : (run ops).NoneBare :=
    applyAll_induction (fun op hmem _ => noneBare_apply (anyIncludesBare_eq_false_iff.mp h op hmem))
      fun _ => by rw [QueryBuilder.empty, Relationship.families]; exact List.not_mem_nil
  rw [QueryBuilder.included_build]
  exact hrun name

/-! ## Programs without warnings -/

theorem nameWarnings_eq_nil_iff {name : String} :
    nameWarnings name = [] ↔ ':' ∉ name.toList ∧ ',' ∉ name.toList := by
  have hmarks : isAmbiguous name = false ↔ ':' ∉ name.toList ∧ ',' ∉ name.toList := by
    simp only [isAmbiguous, List.any_eq_false, Bool.or_eq_true, decide_eq_true_eq, not_or]
    exact ⟨fun h => ⟨fun hc => (h _ hc).1 rfl, fun hc => (h _ hc).2 rfl⟩,
      fun h c hc => ⟨fun heq => h.1 (heq ▸ hc), fun heq => h.2 (heq ▸ hc)⟩⟩
  rw [← hmarks, nameWarnings]
  cases isAmbiguous name with
  | true => simp
  | false => simp

/-- A line of the log tells of a name that is ambiguous. -/
def TellsAmbiguous (line : String) : Prop :=
  "ambiguous in compact form".toList <:+: line.toList

theorem tellsAmbiguous_line (warning : QueryWarning) : TellsAmbiguous warning.event.line := by
  cases warning with
  | ambiguousName name =>
      have htext : (QueryWarning.ambiguousName name).text
          = "Relationship name '" ++ name ++ "' is ambiguous in compact form" := rfl
      have hback : "ambiguous in compact form".toList
          <:+ "' is ambiguous in compact form".toList := ⟨"' is ".toList, by decide⟩
      unfold TellsAmbiguous
      rw [QueryWarning.event, Event.line_warn, htext]
      -- the phrase ends the line
      simp only [String.toList_append]
      exact ((hback.trans (List.suffix_append _ _)).trans (List.suffix_append _ _)).isInfix

/-- A log tells of no ambiguous name only if there is no warning. -/
theorem warnings_eq_nil_of_log {ops : List QueryOp}
    (h : ∀ line ∈ log ops, ¬ TellsAmbiguous line) : (run ops).warnings = [] := by
  rw [List.eq_nil_iff_forall_not_mem]
  intro warning hmem
  exact h warning.event.line (List.mem_map_of_mem hmem) (tellsAmbiguous_line warning)

/-- **What a program without warnings leaves to look at.** An entry in compact form, at any depth,
is read as the relationship that was asked for exactly when its name and its columns are not empty
and no column has a comma in it. A name with a colon or a comma in it never goes out without a
warning. -/
theorem readsBack_of_silent {ops : List QueryOp} (hbare : anyIncludesBare ops = false)
    (hsilent : ∀ line ∈ log ops, ¬ TellsAmbiguous line) :
    ∀ relationship ∈ Query.included (run ops).build,
      ∀ form, relationship.compact? = some form →
        ∃ name columns, relationship = .scoped name columns
          ∧ ':' ∉ name.toList ∧ ',' ∉ name.toList
          ∧ (Relationship.ofCompact form = .ok relationship
            ↔ name ≠ "" ∧ ∀ column ∈ columns, column ≠ "" ∧ ',' ∉ column.toList) := by
  intro relationship hmem form hform
  have hwarnings := warnings_eq_nil_of_log hsilent
  rw [warnings_eq_flatMap, List.flatMap_eq_nil_iff] at hwarnings
  rcases relationship with name | ⟨name, columns⟩ | ⟨name, query⟩
  · -- a name alone, which the program does not include
    exact absurd hmem (bare_notMem_included hbare name)
  · -- a name with columns: without a warning there is no mark in the name
    have hmarks := nameWarnings_eq_nil_iff.mp (hwarnings _ hmem)
    refine ⟨name, columns, rfl, hmarks.1, hmarks.2, ?_⟩
    rw [Relationship.ofCompact_eq_ok_iff, and_iff_left hform]
    exact and_congr_left' (and_iff_left hmarks)
  · -- a query of its own, which has no compact form
    cases hform

/-- Scopes given at once and by a query, in the query of another relationship, and a name that is
empty. -/
theorem readsBack_of_silent_nested :
    let asked : FilterOp := .condition .and .comparison [.string "approved", .bool true]
    let ops : List QueryOp :=
      [.relatedQuery "" [.select ["id"]],
        .relatedQuery "comments" [.filter asked, .relatedColumns "user" ["id", "a:b"]]]
    anyIncludesBare ops = false
      ∧ (∀ line ∈ log ops, ¬ TellsAmbiguous line)
      ∧ Relationship.ofCompact "user:id,a:b" = .ok (.scoped "user" ["id", "a:b"])
      ∧ Relationship.ofCompact ":id" ≠ .ok (.scoped "" ["id"]) := by
  intro asked ops
  have hbare : anyIncludesBare ops = false := rfl
  have hlog : log ops = [] := rfl
  have hsilent : ∀ line ∈ log ops, ¬ TellsAmbiguous line := by
    rw [hlog]
    exact List.forall_mem_nil _
  have hincluded : Query.included (run ops).build
      = [.scoped "" ["id"],
          .nested "comments"
            ⟨none, some [.condition ⟨.comparison, [.string "approved", .bool true]⟩],
              some [.scoped "user" ["id", "a:b"]]⟩,
          .scoped "user" ["id", "a:b"]] := rfl
  have hread := readsBack_of_silent hbare hsilent
  simp only [hincluded, List.forall_mem_cons] at hread
  obtain ⟨hempty, -, huser, -⟩ := hread
  refine ⟨hbare, hsilent, ?_, ?_⟩
  · -- marks in columns do no harm if they are colons
    obtain ⟨_, _, heq, -, -, hiff⟩ := huser "user:id,a:b" rfl
    cases heq
    exact hiff.mpr (by decide +kernel)
  · -- an empty name
    obtain ⟨_, _, heq, -, -, hiff⟩ := hempty ":id" rfl
    cases heq
    exact fun h => (hiff.mp h).1 rfl

/-- A program that includes nothing by its name alone logs nothing, and yet an entry of its query in
compact form is not read as the relationship that was asked for. -/
def SilentlyMisread (ops : List QueryOp) : Prop :=
  anyIncludesBare ops = false
    ∧ log ops = []
    ∧ ∃ relationship ∈ Query.included (run ops).build,
      ∃ form, relationship.compact? = some form
        ∧ Relationship.ofCompact form ≠ .ok relationship

/-- A comma in a column, an empty column and an empty name go out without a warning, and are not
read as they were meant. -/
theorem silentlyMisread_scopes :
    SilentlyMisread [.relatedColumns "author" ["id,name"]]
      ∧ SilentlyMisread [.relatedColumns "author" [""]]
      ∧ SilentlyMisread [.relatedQuery "" [.select ["id"]]] := by
  have hmisread : ∀ {name : String} {columns : List String},
      ¬ (Relationship.scoped name columns).WellFormed →
        ∃ relationship ∈ [Relationship.scoped name columns],
          ∃ form, relationship.compact? = some form
            ∧ Relationship.ofCompact form ≠ .ok relationship :=
    fun hwell => ⟨_, List.mem_singleton_self _, _, rfl,
      fun h => hwell (Relationship.ofCompact_eq_ok_iff.mp h).1⟩
  refine ⟨⟨rfl, rfl, hmisread fun h => ?_⟩, ⟨rfl, rfl, hmisread fun h => ?_⟩,
    ⟨rfl, rfl, hmisread fun h => ?_⟩⟩
  · -- a comma in a column, an empty column, and an empty name
    exact (h.2 "id,name" List.mem_cons_self).2 (by decide +kernel)
  · exact (h.2 "" List.mem_cons_self).1 rfl
  · exact h.1.1 rfl

end QueryOp

end ResourceQuery
