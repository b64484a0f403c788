/-
# The two evaluators take the same steps

Whatever part of an accepted text is run, on a machine and on a memory that
mirrors it, where the names in force are laid out along the frames, the two
evaluators end alike.  The induction is on the allowance, with one lemma for each
function of the evaluators.

The distances of the one evaluator are those of the names in the scopes of the
part (`Resolved`); the other one knows neither distances nor scopes.
-/

import Lox.Proofs.Lexical.Declarations

namespace Lox

open Execution Analysis

namespace Lexical

variable {texts : List Text} {layout later : Layout} {distances : Distances} {memory : Memory}
  {machine : Machine} {scopes : List Scope} {place : Place}

/-- Two statements ended alike: what follows stands in these scopes, or values
that mirror each other are on their way. -/
inductive Ends (texts : List Text) (layout : Layout) (frames : FrameStore Lox.Value)
    (current : FrameId) (scopes : List Scope) : Lox.Completion → Completion → Prop where
  | normal {place : Place} (stands : Stands layout frames current scopes place) :
      Ends texts layout frames current scopes .normal (.normal place)
  | returned {value : Lox.Value} {image : Value}
      (same : Value.Mirrors texts layout frames value image) :
      Ends texts layout frames current scopes (.returned value) (.returned image)

/-- A statement that declares a name: the name is put in front of the others, its
value is made, and then the name has it. -/
theorem follows_declaration {name : String} {computation : Execution Lox.Value}
    (image : Env → Evaluation Value) (mirrors : machine.Mirrors texts layout memory)
    (stands : Stands layout machine.frames machine.current scopes place)
    (undeclared : ∀ scope outer, scopes = scope :: outer → scope.contains name = false)
    (made : ∀ env memory' later, machine.Mirrors texts later memory' →
      Matches later machine.frames machine.current (declared name scopes) env →
        Follows texts false later computation machine (image env) memory'
          fun last frames value image => ∀ after,
            FrameStore.Keeps (some machine.current) frames after →
              Matches last after machine.current (defined name (declared name scopes)) env →
                Value.Mirrors texts last after value image) :
    Follows texts true layout
      (computation >>= fun value => Execution.define name value >>= fun _ =>
        pure Lox.Completion.normal) machine
      (declare place name >>= fun behind => image behind.env >>= fun value =>
        define behind name value >>= fun _ => pure (Completion.normal behind)) memory
      fun later frames => Ends texts later frames machine.current
        (defined name (declared name scopes)) := by
  obtain ⟨behind, memory', later, ran, extends', mirrors, stands⟩ :=
    declare_stands name mirrors stands undeclared
  refine Follows.after ran extends' ?_
  refine (made behind.env memory' later mirrors stands.fits).behind
    fun value image m' s' last further mirrors' same => ?_
  have current := further.keeps.current
  have stands' := stands.extend mirrors.started further
  have holds (after : FrameStore Lox.Value)
      (kept : FrameStore.Keeps (some m'.current) m'.frames after)
      (fits : Matches last after m'.current (defined name (declared name scopes)) behind.env) :
      Value.Mirrors texts last after value image := by
    rw [current] at kept fits
    exact same after kept fits
  refine (follows_define name mirrors' stands' holds).bind fun _ _ _ _ _ _ mirrors stands => ?_
  rw [current] at stands
  exact .pure mirrors (.normal stands)

mutual

/-- The two evaluators agree on an expression. -/
theorem follows_evaluate (resolved : Resolved distances texts) (n : Nat) {expr : Expr Reference}
    {analysis : Analysis} {layout : Layout} {m : Machine} {s : Memory} {env : Env}
    (visited : Visited texts analysis (.expr expr)) (mirrors : m.Mirrors texts layout s)
    (fits : Matches layout m.frames m.current analysis.scopes env) :
    Follows texts false layout (Lox.evaluate distances n expr) m
      (evaluate n env expr.unlabelled) s (Value.Mirrors texts) := by
  match n, expr, visited with
  | 0, _, _ => exact .throw mirrors
  | n + 1, .literal value, _ => exact .pure mirrors (.ofLiteral value)
  | n + 1, .grouping inner, visited =>
      exact follows_evaluate resolved n (visited.call .inner) mirrors fits
  | n + 1, .unary operator operand, visited =>
      refine (follows_evaluate resolved n (visited.call .operand) mirrors fits).bind
        fun _ _ _ _ _ _ mirrors same => ?_
      exact .require operator mirrors (mirrors_prefixValue operator same)
  | n + 1, .binary left operator right, visited =>
      refine (follows_evaluate resolved n (visited.call .left) mirrors fits).bind
        fun _ _ _ _ _ behind mirrors same => ?_
      have fits' := behind.fits fits
      rw [← scopes_expr analysis left] at fits'
      refine (follows_evaluate resolved n (visited.call .right) mirrors fits').bind
        fun _ _ _ _ _ further mirrors same' => ?_
      exact .require operator mirrors
        (mirrors_infixValue operator (further.mirrors same) same')
  | n + 1, .logical left operator right, visited =>
      refine (follows_evaluate resolved n (visited.call .first) mirrors fits).bind
        fun value image _ _ _ behind mirrors same => ?_
      have fits' := behind.fits fits
      rw [← scopes_expr analysis left] at fits'
      rw [same.settles operator]
      split
      · exact .pure mirrors same
      · exact follows_evaluate resolved n (visited.call .second) mirrors fits'
  | n + 1, .variable reference name, visited =>
      have follows : Follows texts false layout _ m _ s _ := follows_lookUp name mirrors fits
      rw [← visited.distance_variable resolved] at follows
      exact follows
  | n + 1, .this reference keyword, visited =>
      have follows : Follows texts false layout _ m _ s _ :=
        follows_lookUp keyword mirrors fits
      rw [← visited.distance_this resolved] at follows
      exact follows
  | n + 1, .assign reference name value, visited =>
      refine (follows_evaluate resolved n (visited.call .value) mirrors fits).bind
        fun _ _ _ _ later behind mirrors same => ?_
      have follows : Follows texts false later _ _ _ _ _ :=
        follows_assign name mirrors (behind.fits fits) same
      rw [← visited.distance_assign resolved] at follows
      exact follows.bind fun _ _ _ _ _ further mirrors _ => .pure mirrors (further.mirrors same)
  | n + 1, .call callee paren arguments, visited =>
      refine (follows_evaluate resolved n (visited.call .callee) mirrors fits).bind
        fun _ _ _ _ _ behind mirrors same => ?_
      have fits' := behind.fits fits
      rw [← scopes_expr analysis callee] at fits'
      refine (follows_evaluateAll resolved n (visited.call .arguments) mirrors fits').bind
        fun _ _ _ _ _ further mirrors all => ?_
      exact follows_call resolved n paren mirrors (further.mirrors same) all
  | n + 1, .get object name, visited =>
      refine (follows_evaluate resolved n (visited.call .object) mirrors fits).bind
        fun _ _ _ _ _ _ mirrors same => ?_
      cases same with
      | instanceValue identity same => exact follows_property identity name mirrors same
      | _ => exact .fail name _ mirrors
  | n + 1, .set object name value, visited =>
      have before := fits
      rw [← scopes_expr analysis value] at before
      refine (follows_evaluate resolved n (visited.call .owner) mirrors before).bind
        fun _ _ _ _ _ behind mirrors same => ?_
      cases same with
      | instanceValue identity same =>
          have fits' := behind.fits fits
          refine (follows_evaluate resolved n (visited.call .stored) mirrors fits').bind
            fun _ _ _ _ _ _ mirrors same' => ?_
          exact (follows_setField identity name.lexeme mirrors same').bind
            fun _ _ _ _ _ further mirrors _ => .pure mirrors (further.mirrors same')
      | _ => exact .fail name _ mirrors

/-- The two evaluators agree on a row of expressions. -/
theorem follows_evaluateAll (resolved : Resolved distances texts) (n : Nat)
    {exprs : List (Expr Reference)} {analysis : Analysis} {layout : Layout} {m : Machine}
    {s : Memory} {env : Env} (visited : Visited texts analysis (.exprs exprs))
    (mirrors : m.Mirrors texts layout s)
    (fits : Matches layout m.frames m.current analysis.scopes env) :
    Follows texts false layout (Lox.evaluateAll distances n exprs) m
      (evaluateAll n env (Expr.allUnlabelled exprs)) s
      fun later frames => List.Forall₂ (Value.Mirrors texts later frames) := by
  match n, exprs, visited with
  | 0, _, _ => exact .throw mirrors
  | n + 1, [], _ => exact .pure mirrors .nil
  | n + 1, first :: rest, visited =>
      refine (follows_evaluate resolved n (visited.call .firstExpr) mirrors fits).bind
        fun _ _ _ _ _ behind mirrors same => ?_
      have fits' := behind.fits fits
      rw [← scopes_expr analysis first] at fits'
      refine (follows_evaluateAll resolved n (visited.call .otherExprs) mirrors fits').bind
        fun _ _ _ _ _ further mirrors all => ?_
      exact .pure mirrors (.cons (further.mirrors same) all)

/-- The two evaluators agree on a call. -/
theorem follows_call (resolved : Resolved distances texts) (n : Nat) {callee : Lox.Value}
    {image : Value} {arguments : List Lox.Value} {images : List Value} {layout : Layout}
    {m : Machine} {s : Memory} (paren : Token) (mirrors : m.Mirrors texts layout s)
    (same : Value.Mirrors texts layout m.frames callee image)
    (all : List.Forall₂ (Value.Mirrors texts layout m.frames) arguments images) :
    Follows texts false layout (Lox.call distances n callee paren arguments) m
      (call n image paren images) s (Value.Mirrors texts) := by
  match n with
  | 0 => exact .throw mirrors
  | n + 1 =>
      cases same with
      | @function closure image same =>
          obtain ⟨identity, ⟨name, names, body⟩, home⟩ := closure
          obtain ⟨identity', declaration, env⟩ := image
          obtain ⟨_, rfl, analysis, kind, visited, fits⟩ := same
          refine (Follows.checkArity paren names.length all.length_eq mirrors).bind
            fun _ _ _ _ _ behind mirrors arity => ?_
          have fits' := fits.mono behind.grown behind.keeps.frames
          have all' := all.imp fun _ _ => behind.mirrors
          obtain ⟨inner, s', last, ran, grown, own, entered, stands⟩ :=
            parameters_stand visited mirrors fits' all' arity
          have inside := follows_executeAll resolved n (visited.call .body) entered stands
          refine Follows.after ran (.refl _ _) ?_
          refine (follows_inside grown own inside).bind fun _ _ _ _ _ _ mirrors ended => ?_
          cases ended with
          | normal => exact .pure mirrors .nil
          | returned same => exact .pure mirrors same
      | native native =>
          cases native
          exact (Follows.checkArity paren 0 all.length_eq mirrors).bind
            fun _ _ _ _ _ _ mirrors _ => follows_readClock mirrors
      | classValue same =>
          refine (Follows.checkArity paren 0 all.length_eq mirrors).bind
            fun _ _ _ _ _ behind mirrors _ => ?_
          have same' := same.mono (List.Subset.refl _) behind.grown behind.keeps.frames
          exact follows_newInstance mirrors same'
      | _ => exact .fail paren _ mirrors

/-- The two evaluators agree on a statement. -/
theorem follows_execute (resolved : Resolved distances texts) (n : Nat) {stmt : Stmt Reference}
    {analysis : Analysis} {layout : Layout} {m : Machine} {s : Memory} {place : Place}
    (visited : Visited texts analysis (.stmt stmt)) (mirrors : m.Mirrors texts layout s)
    (stands : Stands layout m.frames m.current analysis.scopes place) :
    Follows texts true layout (Lox.execute distances n stmt) m (execute n place stmt.unlabelled) s
      fun later frames =>
        Ends texts later frames m.current (scopesBehind analysis.scopes stmt) := by
  match n, stmt, visited with
  | 0, _, _ => exact .throw mirrors
  | n + 1, .expression expr, visited =>
      refine (follows_evaluate resolved n (visited.call .expression) mirrors stands.fits).behind
        fun _ _ _ _ _ behind mirrors' _ => ?_
      have stands' := stands.extend mirrors.started behind
      rw [behind.keeps.current] at stands'
      exact .pure mirrors' (.normal stands')
  | n + 1, .print expr, visited =>
      refine (follows_evaluate resolved n (visited.call .print) mirrors stands.fits).behind
        fun _ _ _ _ _ behind mirrors' same => ?_
      refine (follows_print mirrors' same).behind fun _ _ _ _ _ further mirrors' _ => ?_
      have stands' := stands.extend mirrors.started (behind.trans further)
      rw [(behind.trans further).keeps.current] at stands'
      exact .pure mirrors' (.normal stands')
  | n + 1, .varDecl name none, visited =>
      exact follows_declaration (fun _ => pure .nil) mirrors stands
        (fun _ _ => visited.undeclared rfl) fun _ _ _ mirrors _ =>
          .pure mirrors fun _ _ _ => .nil
  | n + 1, .varDecl name (some initializer), visited =>
      refine follows_declaration (fun env => evaluate n env initializer.unlabelled) mirrors stands
        (fun _ _ => visited.undeclared rfl) fun env s' later mirrors fits => ?_
      rw [← scopes_declare] at fits
      exact (follows_evaluate resolved n (visited.call .initializer) mirrors fits).imp
        fun last _ _ _ same _ kept _ =>
          same.mono (List.Subset.refl _) (List.prefix_refl last) kept
  | n + 1, .block body, visited =>
      apply Follows.get_left
      have entered := mirrors.push m.current {} m.frames.nextId
      have inside := follows_executeAll resolved n (visited.call .block) entered
        (block_stands mirrors stands)
      have ran := follows_inside (List.prefix_refl layout) (fun _ _ member _ => member) inside
      rw [← bind_pure (newFrame m.current >>= _)]
      refine ran.behind fun _ _ _ _ _ behind mirrors' ended => ?_
      cases ended with
      | normal =>
          have stands' := stands.extend mirrors.started behind
          rw [behind.keeps.current] at stands'
          exact .pure mirrors' (.normal stands')
      | returned same => exact .pure mirrors' (.returned same)
  | n + 1, .conditional condition onTrue none, visited =>
      refine (follows_evaluate resolved n (visited.call .condition) mirrors stands.fits).behind
        fun _ _ _ _ _ behind mirrors' same => ?_
      have stands' := stands.extend mirrors.started behind
      rw [same.isTruthy]
      split
      · rw [← scopes_expr analysis condition] at stands'
        have ran := follows_execute resolved n (visited.call .onTrue) mirrors' stands'
        rwa [scopes_expr, scopesBehind_of_not_declaration _ visited.shaped.2.2,
          behind.keeps.current] at ran
      · rw [behind.keeps.current] at stands'
        exact .pure mirrors' (.normal stands')
  | n + 1, .conditional condition onTrue (some onFalse), visited =>
      obtain ⟨_, ⟨shaped, onTrueIsNone⟩, _, onFalseIsNone⟩ := visited.shaped
      refine (follows_evaluate resolved n (visited.call .condition) mirrors stands.fits).behind
        fun _ _ _ _ _ behind mirrors' same => ?_
      have stands' := stands.extend mirrors.started behind
      rw [← scopes_expr analysis condition] at stands'
      rw [same.isTruthy]
      split
      · have ran := follows_execute resolved n (visited.call .onTrue) mirrors' stands'
        rwa [scopes_expr, scopesBehind_of_not_declaration _ onTrueIsNone,
          behind.keeps.current] at ran
      · have unchanged := scopes_stmt (analysis.expr condition) shaped
        rw [scopesBehind_of_not_declaration _ onTrueIsNone] at unchanged
        rw [← unchanged] at stands'
        have ran := follows_execute resolved n (visited.call .onFalse) mirrors' stands'
        rwa [unchanged, scopes_expr, scopesBehind_of_not_declaration _ onFalseIsNone,
          behind.keeps.current] at ran
  | n + 1, .whileLoop condition body, visited =>
      exact follows_loop resolved n visited mirrors stands
  | n + 1, .funDecl (.mk name names body), visited =>
      apply Follows.get_left
      refine follows_declaration (newClosure (Stmt.functionUnlabelled (.mk name names body)))
        mirrors stands (fun _ _ => visited.undeclared rfl) fun env s' later mirrors fits => ?_
      refine (follows_newClosure (.mk name names body) mirrors).imp
        fun last _ _ _ same after _ fits => ?_
      rw [← scopes_declare, ← scopes_define] at fits
      exact same after _ .function (visited.call .function) fits
  | n + 1, .returning _ none, _ => exact .pure mirrors (.returned .nil)
  | n + 1, .returning keyword (some expr), visited =>
      have fits := stands.fits
      rw [← scopes_returning analysis keyword] at fits
      exact (follows_evaluate resolved n (visited.call .returned) mirrors fits).behind
        fun _ _ _ _ _ _ mirrors same => .pure mirrors (.returned same)
  | n + 1, .classDecl name methods, visited =>
      have inside : (analysis.enterClass name).scopes =
          receiverScope :: defined name.lexeme (declared name.lexeme analysis.scopes) := by
        rw [← scopes_declare { analysis with inClass := true }, ← scopes_define]
        rfl
      refine follows_declaration (newClass name.lexeme (Stmt.methodsUnlabelled methods)) mirrors
        stands (fun _ _ => visited.undeclared rfl) fun env s' later mirrors fits => ?_
      exact (follows_newClass name.lexeme methods mirrors).imp
        fun last _ _ _ same after _ fits => same after _ _ (visited.call .methods) inside fits

/-- The two evaluators agree on a loop. -/
theorem follows_loop (resolved : Resolved distances texts) (n : Nat)
    {condition : Expr Reference} {body : Stmt Reference} {analysis : Analysis} {layout : Layout}
    {m : Machine} {s : Memory} {place : Place}
    (visited : Visited texts analysis (.stmt (.whileLoop condition body)))
    (mirrors : m.Mirrors texts layout s)
    (stands : Stands layout m.frames m.current analysis.scopes place) :
    Follows texts true layout (Lox.loop distances n condition body) m
      (loop n place condition.unlabelled body.unlabelled) s
      fun later frames => Ends texts later frames m.current analysis.scopes := by
  match n with
  | 0 => exact .throw mirrors
  | n + 1 =>
      refine (follows_evaluate resolved n (visited.call .guard) mirrors stands.fits).behind
        fun _ _ _ _ _ behind mirrors' same => ?_
      have stands' := stands.extend mirrors.started behind
      have current := behind.keeps.current
      rw [same.isTruthy]
      split
      · rw [← scopes_expr analysis condition] at stands'
        refine (follows_execute resolved n (visited.call .round) mirrors' stands').bind
          fun _ _ _ _ _ further mirrors'' ended => ?_
        rw [scopes_expr, scopesBehind_of_not_declaration _ visited.shaped.2.2,
          ← further.keeps.current] at ended
        have current' := further.keeps.current.trans current
        cases ended with
        | normal stands'' =>
            have more := follows_loop resolved n visited mirrors'' stands''
            rwa [current'] at more
        | returned same => exact .pure mirrors'' (.returned same)
      · rw [current] at stands'
        exact .pure mirrors' (.normal stands')

/-- The two evaluators agree on a row of statements. -/
theorem follows_executeAll (resolved : Resolved distances texts) (n : Nat)
    {stmts : List (Stmt Reference)} {analysis : Analysis} {layout : Layout} {m : Machine}
    {s : Memory} {place : Place}
    (visited : Visited texts analysis (.stmts stmts)) (mirrors : m.Mirrors texts layout s)
    (stands : Stands layout m.frames m.current analysis.scopes place) :
    Follows texts true layout (Lox.executeAll distances n stmts) m
      (executeAll n place (Stmt.allUnlabelled stmts)) s
      fun later frames => Ends texts later frames m.current (analysis.stmts stmts).scopes := by
  match n, stmts, visited with
  | 0, _, _ => exact .throw mirrors
  | n + 1, [], _ => exact .pure mirrors (.normal stands)
  | n + 1, first :: rest, visited =>
      refine (follows_execute resolved n (visited.call .firstStmt) mirrors stands).bind
        fun _ _ _ _ _ behind mirrors' ended => ?_
      rw [← scopes_stmt analysis visited.shaped.1, ← behind.keeps.current] at ended
      cases ended with
      | normal stands' =>
          have more := follows_executeAll resolved n (visited.call .otherStmts) mirrors' stands'
          rwa [behind.keeps.current] at more
      | returned same => exact .pure mirrors' (.returned same)

end

end Lexical

end Lox
