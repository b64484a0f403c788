/-
# What the walk records

The analysis records a distance at three kinds of parts: at a variable, behind the
value of an assignment, and at a `this` inside a class.  `Analysis.Records` says so,
with the state in which it is done.

In a text whose references are new and all different, each reference is recorded at
one place at most, and no distance of it is known before.  The distances that are
known in the end are those of these places (`Text.last_eq_iff_records`).
-/

import Lox.Proofs.Visits.Unique

namespace Lox

namespace Analysis

/-- At a part itself, the analysis records a reference under a name, and this is the
state in which it does. -/
inductive Records (analysis : Analysis) : Part → Analysis → Reference → Token → Prop where
  | used {reference : Reference} {name : Token} :
      Records analysis (.expr (.variable reference name))
        (if analysis.isUninitialized name.lexeme then
          analysis.report .readInOwnInitializer name else analysis) reference name
  | assigned {reference : Reference} {name : Token} {value : Expr Reference} :
      Records analysis (.expr (.assign reference name value)) (analysis.expr value) reference name
  | receiver {reference : Reference} {keyword : Token} (inside : analysis.inClass = true) :
      Records analysis (.expr (.this reference keyword)) analysis reference keyword

variable {analysis inner moment : Analysis} {part piece : Part} {reference : Reference}
  {name : Token}

namespace Records

/-- To record the reference is the last thing that is done at its part. -/
theorem walk_eq (records : analysis.Records part moment reference name) :
    analysis.walk part = moment.record reference name := by
  cases records with
  | used => rfl
  | assigned => rfl
  | receiver inside =>
      rw [walk, Analysis.expr, inside]
      rfl

theorem mem (records : analysis.Records part moment reference name) :
    reference ∈ part.labels := by
  cases records with
  | used => exact List.mem_singleton_self _
  | assigned =>
      have last := List.mem_singleton_self (reference, name)
      exact List.mem_map_of_mem (List.mem_append_right _ last)
  | receiver => exact List.mem_singleton_self _

/-- The reference stands nowhere else in the part. -/
theorem not_mem_inside (records : analysis.Records part moment reference name)
    (different : part.labels.Nodup) (calls : analysis.Calls part inner piece) :
    reference ∉ piece.labels := by
  cases records with
  | used => cases calls
  | assigned =>
      cases calls
      rw [Part.labels, Part.references, Expr.references, List.map_append,
        List.nodup_append] at different
      exact fun member => different.2.2 reference member reference (List.mem_singleton_self _) rfl
  | receiver => cases calls

/-- What is done at the part before does not record the reference. -/
theorem distances_eq (records : analysis.Records part moment reference name)
    (different : part.labels.Nodup) :
    moment.distances[reference]? = analysis.distances[reference]? := by
  cases records with
  | used => split <;> rfl
  | @assigned _ _ value =>
      have absent : reference ∉ Part.labels (.expr value) :=
        not_mem_inside (.assigned : analysis.Records _ _ _ _) different .value
      exact (adds_expr analysis value).distances reference fun other among =>
        absent (List.mem_map_of_mem among)
  | receiver => rfl

/-- A part records one reference, in one state. -/
theorem unique {again : Analysis} {other : Token}
    (records : analysis.Records part moment reference name)
    (records' : analysis.Records part again reference other) : again = moment ∧ other = name := by
  cases records <;> cases records' <;> exact ⟨rfl, rfl⟩

end Records

/-- Walking through a part, the analysis comes to a place where it records this
reference. -/
def ComesToRecord (analysis : Analysis) (part : Part) (reference : Reference) : Prop :=
  ∃ inner piece moment name, Leads (analysis, part) (inner, piece) ∧
    inner.Records piece moment reference name

/-- What a part does not record, none of the parts inside records. -/
theorem Calls.silent (calls : analysis.Calls part inner piece)
    (silent : ¬ analysis.ComesToRecord part reference) : ¬ inner.ComesToRecord piece reference := by
  rintro ⟨last, leaf, moment, name, leads, records⟩
  exact silent ⟨last, leaf, moment, name, leads.head calls, records⟩

theorem Records.comes (records : analysis.Records part moment reference name) :
    analysis.ComesToRecord part reference :=
  ⟨analysis, part, moment, name, .refl, records⟩

/-- What has no references leaves all distances as they are. -/
theorem Adds.unchanged {first second : Analysis} (adds : Adds [] first second)
    (reference : Reference) : second.distances[reference]? = first.distances[reference]? :=
  adds.distances reference fun _ => List.not_mem_nil

mutual

/-- What is not recorded in an expression is known as it was before. -/
theorem kept_expr (analysis : Analysis) (expr : Expr Reference)
    (silent : ¬ analysis.ComesToRecord (.expr expr) reference) :
    (analysis.expr expr).distances[reference]? = analysis.distances[reference]? := by
  match expr with
  | .literal _ => rfl
  | .grouping inner => exact kept_expr analysis inner (Calls.inner.silent silent)
  | .unary _ operand => exact kept_expr analysis operand (Calls.operand.silent silent)
  | .binary left _ right =>
      exact (kept_expr _ right (Calls.right.silent silent)).trans
        (kept_expr analysis left (Calls.left.silent silent))
  | .logical left _ right =>
      exact (kept_expr _ right (Calls.second.silent silent)).trans
        (kept_expr analysis left (Calls.first.silent silent))
  | .variable other name =>
      have apart : reference ≠ other := fun same => silent (same ▸ Records.used.comes)
      exact (adds_expr analysis (.variable other name)).distances reference fun name' member =>
        apart (congrArg Prod.fst (List.mem_singleton.1 member))
  | .assign other name value =>
      have apart : reference ≠ other := fun same => silent (same ▸ Records.assigned.comes)
      have recorded : Adds [(other, name)] (analysis.expr value) _ := .record _ other name
      exact (recorded.distances reference fun name' member =>
        apart (congrArg Prod.fst (List.mem_singleton.1 member))).trans
          (kept_expr analysis value (Calls.value.silent silent))
  | .call callee _ arguments =>
      exact (kept_exprs _ arguments (Calls.arguments.silent silent)).trans
        (kept_expr analysis callee (Calls.callee.silent silent))
  | .get object _ => exact kept_expr analysis object (Calls.object.silent silent)
  | .set object _ value =>
      exact (kept_expr _ object (Calls.owner.silent silent)).trans
        (kept_expr analysis value (Calls.stored.silent silent))
  | .this other keyword =>
      rw [Analysis.expr]
      split
      · next inside =>
          have apart : reference ≠ other := fun same =>
            silent (same ▸ (Records.receiver inside).comes)
          have recorded : Adds [(other, keyword)] analysis _ := .record _ other keyword
          exact recorded.distances reference fun name' member =>
            apart (congrArg Prod.fst (List.mem_singleton.1 member))
      · rfl

/-- What is not recorded in a row of expressions is known as it was before. -/
theorem kept_exprs (analysis : Analysis) (exprs : List (Expr Reference))
    (silent : ¬ analysis.ComesToRecord (.exprs exprs) reference) :
    (analysis.exprs exprs).distances[reference]? = analysis.distances[reference]? := by
  match exprs with
  | [] => rfl
  | first :: rest =>
      exact (kept_exprs _ rest (Calls.otherExprs.silent silent)).trans
        (kept_expr analysis first (Calls.firstExpr.silent silent))

end

mutual

/-- What is not recorded in a statement is known as it was before. -/
theorem kept_stmt (analysis : Analysis) (stmt : Stmt Reference)
    (silent : ¬ analysis.ComesToRecord (.stmt stmt) reference) :
    (analysis.stmt stmt).distances[reference]? = analysis.distances[reference]? := by
  match stmt with
  | .expression value => exact kept_expr analysis value (Calls.expression.silent silent)
  | .print value => exact kept_expr analysis value (Calls.print.silent silent)
  | .varDecl name none => exact (adds_stmt analysis (.varDecl name none)).unchanged reference
  | .varDecl name (some initializer) =>
      have inside := kept_expr (analysis.declare name) initializer
        (Calls.initializer.silent silent)
      exact ((Adds.define _ name).unchanged reference).trans
        (inside.trans ((Adds.declare analysis name).unchanged reference))
  | .block body => exact kept_stmts analysis.enter body (Calls.block.silent silent)
  | .conditional condition onTrue none =>
      exact (kept_stmt _ onTrue (Calls.onTrue.silent silent)).trans
        (kept_expr analysis condition (Calls.condition.silent silent))
  | .conditional condition onTrue (some onFalse) =>
      exact (kept_stmt _ onFalse (Calls.onFalse.silent silent)).trans
        ((kept_stmt _ onTrue (Calls.onTrue.silent silent)).trans
          (kept_expr analysis condition (Calls.condition.silent silent)))
  | .whileLoop condition body =>
      exact (kept_stmt _ body (Calls.round.silent silent)).trans
        (kept_expr analysis condition (Calls.guard.silent silent))
  | .funDecl declaration =>
      have named : Adds [] analysis _ :=
        (Adds.declare analysis declaration.name).trans (.define _ declaration.name)
      exact (kept_function _ .function declaration (Calls.function.silent silent)).trans
        (named.unchanged reference)
  | .returning keyword none => exact (Adds.returning analysis keyword).unchanged reference
  | .returning keyword (some value) =>
      exact (kept_expr _ value (Calls.returned.silent silent)).trans
        ((Adds.returning analysis keyword).unchanged reference)
  | .classDecl name members =>
      exact (kept_methods _ members (Calls.methods.silent silent)).trans
        ((Adds.enterClass analysis name).unchanged reference)

/-- What is not recorded in a function is known as it was before. -/
theorem kept_function (analysis : Analysis) (kind : FunctionKind)
    (declaration : FunctionDecl Reference)
    (silent : ¬ analysis.ComesToRecord (.function kind declaration) reference) :
    (analysis.function kind declaration).distances[reference]? =
      analysis.distances[reference]? := by
  match declaration with
  | .mk _ names body =>
      exact (kept_stmts _ body (Calls.body.silent silent)).trans
        ((Adds.enterFunction analysis kind names).unchanged reference)

/-- What is not recorded in methods is known as it was before. -/
theorem kept_methods (analysis : Analysis) (methods : List (FunctionDecl Reference))
    (silent : ¬ analysis.ComesToRecord (.methods methods) reference) :
    (analysis.methods methods).distances[reference]? = analysis.distances[reference]? := by
  match methods with
  | [] => rfl
  | first :: rest =>
      exact (kept_methods _ rest (Calls.otherMethods.silent silent)).trans
        (kept_function analysis .method first (Calls.firstMethod.silent silent))

/-- What is not recorded in a row of statements is known as it was before. -/
theorem kept_stmts (analysis : Analysis) (stmts : List (Stmt Reference))
    (silent : ¬ analysis.ComesToRecord (.stmts stmts) reference) :
    (analysis.stmts stmts).distances[reference]? = analysis.distances[reference]? := by
  match stmts with
  | [] => rfl
  | first :: rest =>
      exact (kept_stmts _ rest (Calls.otherStmts.silent silent)).trans
        (kept_stmt analysis first (Calls.firstStmt.silent silent))

end

end Analysis

namespace Text

variable {text : Text} {analysis moment again : Analysis} {part : Part} {reference : Reference}
  {name other : Token}

/-- Walking through a text, the analysis records a reference under a name, and this
is the state in which it does. -/
def Records (text : Text) (moment : Analysis) (reference : Reference) (name : Token) : Prop :=
  ∃ analysis part, text.Visits analysis part ∧ analysis.Records part moment reference name

/-- Where the walk leads from a part at which it arrives, it arrives as well. -/
theorem Visits.lead {inner : Analysis × Part} (visited : text.Visits analysis part)
    (leads : Analysis.Leads (analysis, part) inner) : text.Visits inner.1 inner.2 := by
  induction leads with
  | refl => exact visited
  | tail _ calls ih => exact ih.call calls

namespace Records

/-- Only references of the text are recorded. -/
theorem mem_labels (numbered : text.Numbered) (records : text.Records moment reference name) :
    reference ∈ text.labels := by
  obtain ⟨analysis, part, visited, records⟩ := records
  exact List.map_subset _ (visited.separate numbered).subset records.mem

/-- No distance of a reference is known when it is recorded. -/
theorem unknown (numbered : text.Numbered) (records : text.Records moment reference name) :
    moment.distances[reference]? = none := by
  obtain ⟨analysis, part, visited, records⟩ := records
  have separate := visited.separate numbered
  rw [records.distances_eq separate.different]
  exact separate.unknown reference records.mem

/-- A reference is recorded once. -/
theorem unique (numbered : text.Numbered) (records : text.Records moment reference name)
    (records' : text.Records again reference other) : again = moment ∧ other = name := by
  obtain ⟨first, left, visited, records⟩ := records
  obtain ⟨second, right, visited', records'⟩ := records'
  -- Of the two places one is inside the other, and inside there is no such reference.
  rcases visited.nested numbered visited' records.mem records'.mem with leads | leads
  · rcases leads.cases_head with same | ⟨⟨between, piece⟩, calls, more⟩
    · cases same
      exact records.unique records'
    · have absent := records.not_mem_inside (visited.separate numbered).different calls
      exact absurd (Analysis.Leads.labels more records'.mem) absent
  · rcases leads.cases_head with same | ⟨⟨between, piece⟩, calls, more⟩
    · cases same
      exact records.unique records'
    · have absent := records'.not_mem_inside (visited'.separate numbered).different calls
      exact absurd (Analysis.Leads.labels more records.mem) absent

/-- What is recorded is known in the end. -/
theorem last_eq (numbered : text.Numbered) (records : text.Records moment reference name) :
    text.last.distances[reference]? = moment.distance? name.lexeme := by
  have unknown := records.unknown numbered
  obtain ⟨analysis, part, visited, records⟩ := records
  rw [(visited.separate numbered).known reference records.mem, records.walk_eq]
  exact distances_record unknown

end Records

/-- The distances that are known of a text in the end are those that were recorded at
its references. -/
theorem last_eq_iff_records (numbered : text.Numbered) (member : reference ∈ text.labels)
    (distance : Nat) :
    text.last.distances[reference]? = some distance ↔
      ∃ moment name, text.Records moment reference name ∧
        moment.distance? name.lexeme = some distance := by
  constructor
  · intro known
    by_cases comes : text.start.ComesToRecord (.stmts text.program) reference
    · obtain ⟨inner, piece, moment, name, leads, found⟩ := comes
      have records : text.Records moment reference name :=
        ⟨inner, piece, Visits.program.lead leads, found⟩
      exact ⟨moment, name, records, (records.last_eq numbered).symm.trans known⟩
    · have kept : text.last.distances[reference]? = none :=
        (Analysis.kept_stmts text.start text.program comes).trans
          (numbered.fresh reference member)
      rw [kept] at known
      cases known
  · rintro ⟨moment, name, records, found⟩
    rw [records.last_eq numbered, found]

end Text

end Lox
