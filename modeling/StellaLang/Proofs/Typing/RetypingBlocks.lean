import StellaLang.Proofs.Syntax.Children
import StellaLang.Proofs.Typing.Retyping
import StellaLang.Typing.Block

/-! Blocks and programs under other annotations: an unnoticed change of annotations leaves the faults of
declarations as they are, too. -/
namespace StellaLang.Typing

open Syntax (Decl Expr Node Retyping TypeExpr)
open Check Agree

/-- That all aliases that a declaration makes, be it at any depth, have admitted names. -/
def Introduces (admitted : String → Prop) (d : Located Decl) : Prop :=
  ∀ x t position, Node.decl ⟨.typeAlias x t, position⟩ ∈ Decl.postOrder d → admitted x

variable {h : Retyping} {f : Option Position → Option Position} {admitted : String → Prop}
  {R : List String → Context → Context → Prop} {bound : List String} {ctx ctx' : Context}

/-- The locals of a function are declared inside of it. -/
theorem Introduces.locals {modifiers : List Syntax.Modifier} {name : String} {generics : Option (List String)}
    {params : List (String × Located TypeExpr)} {result : Option (Located TypeExpr)}
    {throws : List (Located TypeExpr)} {locals : List (Located Decl)} {body : Located Expr}
    {position : Option Position}
    (outer : Introduces admitted
      ⟨.function modifiers name generics params result throws locals body, position⟩) :
    ∀ d ∈ locals, Introduces admitted d := by
  intro d inside x t place member
  have part : Node.decl d ∈
      (Node.decl ⟨.function modifiers name generics params result throws locals body,
        position⟩).children := by
    simp [Node.children, Decl.children, inside]
  exact outer x t place (Node.mem_postOrder_of_child part member)

namespace SameMeanings

variable (law : SameMeanings h f R)

include law

theorem declaredResult (related : R bound ctx ctx') (result : Option (Located TypeExpr)) :
    Agree (Moved f) Eq (declaredResult ctx result) (declaredResult ctx' (result.map (h bound))) := by
  cases result with
  | none => exact .same _
  | some t => exact law.meaning related t

theorem signature (related : R bound ctx ctx') (generics : Option (List String))
    (params : List (String × Located TypeExpr)) (result : Option (Located TypeExpr)) :
    Agree (Moved f) Eq (signature ctx generics params result)
      (signature ctx' generics (TypeExpr.retypeFields h (bound ++ generics.getD []) params)
        (result.map (h (bound ++ generics.getD [])))) := by
  have types (bound : List String) : (TypeExpr.retypeFields h bound params).map (·.2) =
      (params.map (·.2)).map (h bound) := by
    rw [TypeExpr.retypeFields, List.map_map, List.map_map]
    rfl
  unfold Typing.signature
  rw [types]
  cases generics with
  | none =>
    rw [Option.getD_none, List.append_nil]
    exact .andThen (law.meanings related _) fun _ => .map (law.declaredResult related result) _
  | some xs =>
    have inner := law.bindTypeVars (law.push related) xs
    exact .andThen (law.meanings inner _) fun _ => .map (law.declaredResult inner result) _

end SameMeanings

namespace Unnoticed

variable (law : Unnoticed h f admitted R)

include law

/-- What a declaration adds to contexts, it adds to both alike. -/
theorem declare (related : R bound ctx ctx') {d : Located Decl} (names : Introduces admitted d) :
    Agree (Moved f) (R bound) (declare ctx d.node)
      (declare ctx' (Decl.retype h f bound d).node) := by
  obtain ⟨d, position⟩ := d
  cases d with
  | function _ name =>
    exact .bind (law.signature related _ _ _) fun t _ found =>
      found ▸ .answer (law.bind related name t)
  | typeAlias name type =>
    have itself : admitted name := by
      refine names name type position ?_
      simp [Decl.postOrder]
    exact .andThen (law.meaning related type) fun t => .answer (law.typeAlias related name t itself)
  | exceptionType type =>
    have declared : ctx'.exceptionType = ctx.exceptionType :=
      congrArg Environment.exceptionType (law.alike related).environment
    refine .andThen (law.meaning related type) fun raised => ?_
    have after := law.exceptionType related raised
    dsimp only
    rw [declared]
    split
    · exact .andThen (.note _ _ _ _) fun _ => .answer after
    · exact .answer after
  | exceptionVariant label type =>
    exact .andThen (law.meaning related type) fun t =>
      .answer (law.exceptionVariant related label t)

theorem declareAll (related : R bound ctx ctx') (names : List String) {ds : List (Located Decl)}
    (aliases : ∀ d ∈ ds, Introduces admitted d) :
    Agree (Moved f) (Declaring (R bound)) (declareAll ctx names ds)
      (declareAll ctx' names (Decl.retypeAll h f bound ds)) := by
  induction ds generalizing ctx ctx' names with
  | nil => exact .answer ⟨related, rfl⟩
  | cons d ds ih =>
    have first := aliases d List.mem_cons_self
    have others := fun d member => aliases d (List.mem_cons_of_mem _ member)
    rw [Decl.retypeAll, Typing.declareAll, Typing.declareAll, Decl.name?_retype, Decl.position_retype]
    split
    · exact .bind (law.declare related first) fun _ _ after => ih after names others
    · split
      · exact .andThen (report_relocated _ d.position) fun _ => ih related names others
      · exact .bind (law.declare related first) fun _ _ after => ih after _ others

omit law in
theorem filter_retypeAll {p : Located Decl → Bool} (kept : ∀ d, p (Decl.retype h f bound d) = p d)
    (ds : List (Located Decl)) :
    (Decl.retypeAll h f bound ds).filter p = Decl.retypeAll h f bound (ds.filter p) := by
  rw [Decl.retypeAll_eq, Decl.retypeAll_eq, List.filter_map]
  exact congrArg (List.map _) (List.filter_congr fun d _ => kept d)

omit law in
theorem functions_retypeAll (ds : List (Located Decl)) :
    (Decl.retypeAll h f bound ds).filter (·.node.isFunction) =
      Decl.retypeAll h f bound (ds.filter (·.node.isFunction)) :=
  filter_retypeAll (Decl.isFunction_retype h f bound) ds

omit law in
theorem others_retypeAll (ds : List (Located Decl)) :
    (Decl.retypeAll h f bound ds).filter (!·.node.isFunction) =
      Decl.retypeAll h f bound (ds.filter (!·.node.isFunction)) :=
  filter_retypeAll (fun d => congrArg not (Decl.isFunction_retype h f bound d)) ds

theorem declareBlock (related : R bound ctx ctx') {block : List (Located Decl)}
    (aliases : ∀ d ∈ block, Introduces admitted d) :
    Agree (Moved f) (R bound) (declareBlock ctx block)
      (declareBlock ctx' (Decl.retypeAll h f bound block)) := by
  unfold Typing.declareBlock
  rw [functions_retypeAll, others_retypeAll]
  refine .bind (law.declareAll related [] fun d member => aliases d (List.mem_of_mem_filter member))
    fun _ _ outer => ?_
  refine .bind (law.declareAll outer.1 [] fun d member => aliases d (List.mem_of_mem_filter member))
    fun _ _ inner => ?_
  exact .andThen (.note _ _ _ _) fun _ => .answer inner.1

end Unnoticed

mutual

theorem checkDecl_retyped (law : Unnoticed h f admitted R) {bound : List String} {ctx ctx' : Context}
    (related : R bound ctx ctx') (d : Located Decl) (aliases : Introduces admitted d) :
    Agree (Moved f) Eq (checkDecl ctx d) (checkDecl ctx' (Decl.retype h f bound d)) := by
  obtain ⟨d, position⟩ := d
  exact checkDeclNode_retyped law related position d aliases
termination_by structural d

theorem checkDeclNode_retyped (law : Unnoticed h f admitted R) {bound : List String}
    {ctx ctx' : Context} (related : R bound ctx ctx') (position : Option Position) (d : Decl)
    (aliases : Introduces admitted ⟨d, position⟩) :
    Agree (Moved f) Eq (checkDeclNode ctx d) (checkDeclNode ctx' (Decl.retypeNode h f bound d)) := by
  cases d with
  | function modifiers name generics params result throws locals body =>
    rw [Decl.retypeNode, checkDeclNode, checkDeclNode, Expr.position_retype]
    refine .andThen (.note _ _ _ _) fun _ => ?_
    have entered := law.bindTypeVars (law.push related) (generics.getD [])
    refine .bind (bindParams_retyped law entered params) fun _ _ inside => ?_
    refine .andThen (law.meanings inside.1 throws) fun _ => ?_
    refine .andThen (law.declaredResult inside.1 result) fun r => ?_
    refine .bind (law.declareBlock inside.1 aliases.locals) fun _ _ inner => ?_
    exact .andThen (checkDecls_retyped law inner locals aliases.locals) fun _ =>
      .andThen (synth_retyped law inner body) fun t =>
      require_relocated (law.same inner) t r body.position
  | typeAlias | exceptionType | exceptionVariant => exact .same _
termination_by structural d

theorem checkDecls_retyped (law : Unnoticed h f admitted R) {bound : List String}
    {ctx ctx' : Context} (related : R bound ctx ctx') (ds : List (Located Decl))
    (aliases : ∀ d ∈ ds, Introduces admitted d) :
    Agree (Moved f) Eq (checkDecls ctx ds) (checkDecls ctx' (Decl.retypeAll h f bound ds)) := by
  match ds with
  | [] => exact .same _
  | d :: ds =>
    have first := aliases d List.mem_cons_self
    have others := fun d member => aliases d (List.mem_cons_of_mem _ member)
    exact .guarded (.andThen (checkDecl_retyped law related d first) fun _ =>
      checkDecls_retyped law related ds others)
termination_by structural ds

end

namespace Unnoticed

variable (law : Unnoticed h f admitted R)

include law

theorem checkBlock (related : R bound ctx ctx') {block : List (Located Decl)}
    (aliases : ∀ d ∈ block, Introduces admitted d) :
    Agree (Moved f) (R bound) (checkBlock ctx block)
      (checkBlock ctx' (Decl.retypeAll h f bound block)) :=
  .bind (law.declareBlock related aliases) fun _ _ inner =>
    .andThen (checkDecls_retyped law inner block aliases) fun _ => .answer inner

end Unnoticed

/-- Blocks that are checked alike are so as programs: that there is no `main` is reported of no place. -/
theorem checkModule_of_checkBlock {block block' : List (Located Decl)}
    {R : Context → Context → Prop} (alike : ∀ {ctx ctx'}, R ctx ctx' → ctx.Alike ctx')
    (checked : Agree (Moved f) R (checkBlock ctx block) (checkBlock ctx' block')) :
    Agree (Moved f) R (checkModule ctx block) (checkModule ctx' block') := by
  refine .bind checked fun inner inner' related => ?_
  have missing : Moved f [Fault.missingMain.at none] [Fault.missingMain.at none] :=
    .report f .missingMain none
  dsimp only
  rw [(alike related).vars "main"]
  split
  · exact .andThen (.report missing) fun _ => .answer related
  · exact .answer related

end StellaLang.Typing
