/-
# What the analysis makes of the sites

What the analysis records and reports is settled by the places in the tree alone.

The recorded distance of a reference is that of the innermost scope around it that
declares the name before it, and there is none if there is no such scope or if the
reference is a `this` outside every class (`analyse_records_innermost`).

The reported errors are those of the sites, each at most once and in the order of the
walk.  As no site depends on what is wrong with another one, no report changes any later
one (`analyse_reports_faults`).
-/

import Lox.Proofs.Session
import Lox.Proofs.Sites.Walk

namespace Lox

namespace Site

variable {site : Site} {sites : List Site} {known : Distances} {reference : Reference}
  {name : Token} {distance : Nat}

/-! ## Every reference stands at a site -/

theorem references_append (sites more : List Site) :
    references (sites ++ more) = references sites ++ references more :=
  List.filterMap_append

theorem references_parameters (around : Surroundings) (names : List Token) :
    references (Stmt.parameterSites around names) = [] := by
  induction names generalizing around with
  | nil => rfl
  | cons name names ih => exact ih _

mutual

/-- The references of an expression are those at its sites. -/
theorem perm_expr (around : Surroundings) (expr : Expr Reference) :
    (references (expr.sites around)).Perm expr.references := by
  match expr with
  | .literal _ => exact .refl _
  | .grouping inner => exact perm_expr around inner
  | .unary _ operand => exact perm_expr around operand
  | .binary left _ right =>
      rw [Expr.sites, references_append]
      exact (perm_expr around left).append (perm_expr around right)
  | .logical left _ right =>
      rw [Expr.sites, references_append]
      exact (perm_expr around left).append (perm_expr around right)
  | .variable _ _ => exact .refl _
  | .assign reference name value =>
      rw [Expr.sites, references_append]
      exact (perm_expr around value).append (.refl [(reference, name)])
  | .call callee _ arguments =>
      rw [Expr.sites, references_append]
      exact (perm_expr around callee).append (perm_exprs around arguments)
  | .get object _ => exact perm_expr around object
  | .set object _ value =>
      rw [Expr.sites, references_append]
      exact ((perm_expr around value).append (perm_expr around object)).trans
        List.perm_append_comm
  | .this _ _ => exact .refl _

/-- The references of a row of expressions are those at its sites. -/
theorem perm_exprs (around : Surroundings) (exprs : List (Expr Reference)) :
    (references (Expr.allSites around exprs)).Perm (Expr.allReferences exprs) := by
  match exprs with
  | [] => exact .refl _
  | first :: rest =>
      rw [Expr.allSites, references_append]
      exact (perm_expr around first).append (perm_exprs around rest)

end

mutual

/-- The references of a statement are those at its sites. -/
theorem perm_stmt (around : Surroundings) (stmt : Stmt Reference) :
    (references (stmt.sites around)).Perm stmt.references := by
  match stmt with
  | .expression value => exact perm_expr around value
  | .print value => exact perm_expr around value
  | .varDecl _ none => exact .refl _
  | .varDecl _ (some initializer) => exact perm_expr _ initializer
  | .block body => exact perm_stmts _ body
  | .conditional condition onTrue none =>
      rw [Stmt.sites, references_append]
      exact (perm_expr around condition).append (perm_stmt around onTrue)
  | .conditional condition onTrue (some onFalse) =>
      rw [Stmt.sites, references_append, references_append]
      exact ((perm_expr around condition).append (perm_stmt around onTrue)).append
        (perm_stmt _ onFalse)
  | .whileLoop condition body =>
      rw [Stmt.sites, references_append]
      exact (perm_expr around condition).append (perm_stmt around body)
  | .funDecl declaration => exact perm_function _ declaration
  | .returning _ none => exact .refl _
  | .returning _ (some value) => exact perm_expr around value
  | .classDecl _ members => exact perm_methods _ members

/-- The references of a function are those at its sites. -/
theorem perm_function (around : Surroundings) (declaration : FunctionDecl Reference) :
    (references (Stmt.functionSites around declaration)).Perm
      (Stmt.functionReferences declaration) := by
  match declaration with
  | .mk _ names body =>
      rw [Stmt.functionSites, references_append, references_parameters]
      exact perm_stmts _ body

/-- The references of methods are those at their sites. -/
theorem perm_methods (around : Surroundings) (methods : List (FunctionDecl Reference)) :
    (references (Stmt.methodSites around methods)).Perm (Stmt.methodReferences methods) := by
  match methods with
  | [] => exact .refl _
  | first :: rest =>
      rw [Stmt.methodSites, references_append]
      exact (perm_function around first).append (perm_methods around rest)

/-- The references of a row of statements are those at its sites. -/
theorem perm_stmts (around : Surroundings) (stmts : List (Stmt Reference)) :
    (references (Stmt.allSites around stmts)).Perm (Stmt.allReferences stmts) := by
  match stmts with
  | [] => exact .refl _
  | first :: rest =>
      rw [Stmt.allSites, references_append]
      exact (perm_stmt around first).append (perm_stmts _ rest)

end

/-! ## One site and the next -/

/-- A site has the distance of the innermost scope that declares its name. -/
theorem distance?_eq_some_iff : site.distance? = some distance ↔ site.BoundAt distance := by
  rw [distance?]
  cases stray : site.isStray with
  | true =>
      constructor
      · intro same
        cases same
      · intro bound
        rw [bound.notStray] at stray
        cases stray
  | false =>
      rw [if_neg Bool.false_ne_true, List.findIdx?_eq_some_iff_getElem]
      constructor
      · rintro ⟨inside, declares, before⟩
        refine ⟨stray, ⟨_, List.getElem?_eq_getElem inside, of_decide_eq_true declares⟩,
          fun nearer less names found among => ?_⟩
        obtain ⟨_, rfl⟩ := List.getElem?_eq_some_iff.1 found
        exact before nearer less (decide_eq_true among)
      · rintro ⟨_, ⟨names, found, among⟩, innermost⟩
        obtain ⟨inside, rfl⟩ := List.getElem?_eq_some_iff.1 found
        refine ⟨inside, decide_eq_true among, fun nearer less declares => ?_⟩
        exact innermost nearer less _ (List.getElem?_eq_getElem (Nat.lt_trans less inside))
          (of_decide_eq_true declares)

/-- A site has no distance if no scope declares its name. -/
theorem distance?_eq_none_iff : site.distance? = none ↔ site.Unbound := by
  rw [distance?, Unbound]
  cases stray : site.isStray with
  | true => exact ⟨fun _ => .inl rfl, fun _ => rfl⟩
  | false => simp [List.findIdx?_eq_none_iff]

theorem record_self (stands : site.reference? = some (reference, name)) :
    (record known site)[reference]? = site.distance?.or known[reference]? := by
  rw [record, stands]
  dsimp only
  cases site.distance? with
  | none => rfl
  | some distance => exact Std.TreeMap.getElem?_insert_self

theorem record_other (apart : ∀ name, site.reference? ≠ some (reference, name)) :
    (record known site)[reference]? = known[reference]? := by
  rw [record]
  split
  · rfl
  · next other name stands =>
      split
      · apply Std.TreeMap.getElem?_insert.trans
        apply if_neg
        intro same
        rw [Std.LawfulEqOrd.eq_of_compare same] at stands
        exact apart name stands
      · rfl

theorem mem_labels (member : site ∈ sites) (stands : site.reference? = some (reference, name)) :
    reference ∈ (references sites).map Prod.fst :=
  List.mem_map_of_mem (List.mem_filterMap.2 ⟨site, member, stands⟩)

/-- What stands at none of these sites is not recorded. -/
theorem foldl_record_of_not_mem (absent : reference ∉ (references sites).map Prod.fst) :
    (sites.foldl record known)[reference]? = known[reference]? := by
  induction sites generalizing known with
  | nil => rfl
  | cons first rest ih =>
      have behind : reference ∉ (references rest).map Prod.fst := fun member => absent <| by
        obtain ⟨pair, among, same⟩ := List.mem_map.1 member
        obtain ⟨site, listed, stands⟩ := List.mem_filterMap.1 among
        exact List.mem_map.2
          ⟨pair, List.mem_filterMap.2 ⟨site, List.mem_cons_of_mem _ listed, stands⟩, same⟩
      exact (ih behind).trans
        (record_other fun name stands => absent (mem_labels List.mem_cons_self stands))

/-- If all references are different, each one has the distance of its site. -/
theorem foldl_record (different : ((references sites).map Prod.fst).Nodup) (member : site ∈ sites)
    (stands : site.reference? = some (reference, name)) :
    (sites.foldl record known)[reference]? = site.distance?.or known[reference]? := by
  induction sites generalizing known with
  | nil => cases member
  | cons first rest ih =>
      have split : references (first :: rest) = references [first] ++ references rest :=
        references_append [first] rest
      rw [split, List.map_append, List.nodup_append] at different
      obtain ⟨_, behind, apart⟩ := different
      rcases List.mem_cons.1 member with rfl | member
      · have here := mem_labels (List.mem_singleton_self site) stands
        have absent : reference ∉ (references rest).map Prod.fst := fun there =>
          apart reference here reference there rfl
        exact (foldl_record_of_not_mem absent).trans (record_self stands)
      · have other : ∀ name, first.reference? ≠ some (reference, name) := fun name same =>
          apart reference (mem_labels (List.mem_singleton_self first) same) reference
            (mem_labels member stands) rfl
        rw [List.foldl_cons, ih behind member, record_other other]

end Site

/-! ## What is recorded -/

/-- The recorded distance is that of the innermost declaration.  In a program whose
references are all different, every reference stands at a site, and of the reference at a
site it holds, whatever is wrong with the program:

* if the site is bound, its distance is recorded;
* if it is not, nothing is recorded, and what was known before is still known;
* so if nothing was known before, the recorded distance is that of the site, and nothing
  is recorded if and only if the site is not bound. -/
theorem analyse_records_innermost (known : Distances) (program : List (Stmt Reference))
    (different : ((Stmt.allReferences program).map Prod.fst).Nodup) :
    (Site.references (Stmt.programSites program)).Perm (Stmt.allReferences program) ∧
      ∀ site ∈ Stmt.programSites program, ∀ reference name,
        site.reference? = some (reference, name) →
          let recorded := (analyse known program).1[reference]?
          (∀ distance, site.BoundAt distance → recorded = some distance) ∧
            (site.Unbound → recorded = known[reference]?) ∧
            (known[reference]? = none →
              (∀ distance, recorded = some distance ↔ site.BoundAt distance) ∧
                (recorded = none ↔ site.Unbound)) := by
  have perm := Site.perm_stmts {} program
  refine ⟨perm, fun site member reference name stands => ?_⟩
  intro recorded
  have found : recorded = site.distance?.or known[reference]? := by
    have tells := (Analysis.tells_program known [] program).distances
    refine (congrArg (·[reference]?) tells).trans ?_
    exact Site.foldl_record ((perm.map Prod.fst).nodup_iff.2 different) member stands
  refine ⟨fun distance bound => ?_, fun unbound => ?_, fun unknown => ?_⟩
  · rw [found, Site.distance?_eq_some_iff.2 bound]
    rfl
  · rw [found, Site.distance?_eq_none_iff.2 unbound]
    rfl
  · rw [found, unknown, Option.or_none]
    exact ⟨fun distance => Site.distance?_eq_some_iff, Site.distance?_eq_none_iff⟩

/-- A program in which a variable is read in its own initializer, another one is read
two scopes further in, and `this` stands in no class. -/
def shadowingProgram : List (Stmt Reference) :=
  Session.start.program .script
    "\x7bvar a=1;var b=2;\x7bvar a=a;fun f(c)\x7breturn b;\x7d\x7dthis;\x7d"

theorem shadowingProgram_distances :
    ((Stmt.allReferences shadowingProgram).map Prod.fst).Nodup ∧
      (analyse {} shadowingProgram).2.length = 2 ∧
      (analyse {} shadowingProgram).1[0]? = some 0 ∧
      (analyse {} shadowingProgram).1[1]? = some 2 ∧
      (analyse {} shadowingProgram).1[2]? = none := by
  have different : ((Stmt.allReferences shadowingProgram).map Prod.fst).Nodup := by decide +kernel
  have records := (analyse_records_innermost {} shadowingProgram different).2
  have initializer : ∃ site ∈ Stmt.programSites shadowingProgram,
      site.reference? = some (0, site.token) ∧ site.distance? = some 0 := by decide +kernel
  have returned : ∃ site ∈ Stmt.programSites shadowingProgram,
      site.reference? = some (1, site.token) ∧ site.distance? = some 2 := by decide +kernel
  have stray : ∃ site ∈ Stmt.programSites shadowingProgram,
      site.reference? = some (2, site.token) ∧ site.isStray = true := by decide +kernel
  refine ⟨different, by decide +kernel, ?_, ?_, ?_⟩
  · obtain ⟨site, member, stands, bound⟩ := initializer
    exact (records site member 0 _ stands).1 0 (Site.distance?_eq_some_iff.1 bound)
  · obtain ⟨site, member, stands, bound⟩ := returned
    exact (records site member 1 _ stands).1 2 (Site.distance?_eq_some_iff.1 bound)
  · obtain ⟨site, member, stands, outside⟩ := stray
    exact (records site member 2 _ stands).2.1 (.inl outside)

/-! ## What is reported -/

/-- The errors of a program are those of its sites, in the order of the walk.  Whatever
has been reported before stays in front of them and changes neither them nor the recorded
distances. -/
theorem analyse_reports_faults (known : Distances) (program : List (Stmt Reference)) :
    (analyse known program).2 = (Stmt.programSites program).filterMap Site.error? ∧
      ∀ reported : List StaticError,
        let last := Analysis.stmts { distances := known, errors := reported } program
        last.errors = reported ++ (analyse known program).2 ∧
          last.distances = (analyse known program).1 := by
  have first := Analysis.tells_program known [] program
  refine ⟨first.errors, fun reported => ?_⟩
  have again := Analysis.tells_program known reported program
  have errors : (analyse known program).2 = (Stmt.programSites program).filterMap Site.error? :=
    first.errors
  exact ⟨by rw [again.errors, errors], again.distances.trans first.distances.symm⟩

/-- One text with all four faults. -/
example : (Stmt.programSites (Session.start.program .script
    "\x7bvar a=a;var a;return this;\x7d")).filterMap Site.fault? =
      [.readInOwnInitializer, .alreadyDeclared, .returnOutsideFunction, .thisOutsideClass] := by
  decide +kernel

end Lox
