import Mathlib.Algebra.Order.BigOperators.Group.List
import Mathlib.Algebra.Order.Group.Nat
import StellaLang.Proofs.Syntax.Signatures
import StellaLang.Proofs.Typing.Order
import StellaLang.Proofs.Typing.ReportsExpr

/-! Which errors of a program are reported twice. A function's parameters and its result are given
their meanings once for the signature that the other functions of the block see, and once more when
the function itself is checked. All else is looked at once, so an error stands twice in the list
if and only if it stands in such an annotation. -/
namespace StellaLang.Typing

open Syntax
open Check (Gives Reports Agree)

variable {err : TypeError}

/-- That so many reports are made of pairs, at most `twice` of them, and of single ones, of which there
are so few that `twice` more are still no more than `most`. -/
def Doubling (twice most count : Nat) : Prop :=
  ∃ once again, count = once + 2 * again ∧ again ≤ twice ∧ once + twice ≤ most

namespace Doubling

variable {twice twice' most most' count count' : Nat}

theorem of_le (le : count ≤ most) : Doubling 0 most count :=
  ⟨count, 0, by omega, Nat.le_refl 0, by omega⟩

theorem add (first : Doubling twice most count) (second : Doubling twice' most' count') :
    Doubling (twice + twice') (most + most') (count + count') := by
  obtain ⟨once, again, total, few, bound⟩ := first
  obtain ⟨once', again', total', few', bound'⟩ := second
  exact ⟨once + once', again + again', by omega, by omega, by omega⟩

end Doubling

section Signatures

/-- The type that a declaration makes known, if it is a function. -/
def signatureOf (ctx : Context) (d : Located Decl) : Check Ty :=
  match d.node with
  | .function _ _ generics params result .. => signature ctx generics params result
  | _ => return .unit

/-- How often the error is found in the signature of a declaration. -/
def inSignature (err : TypeError) (ctx : Context) (d : Located Decl) : Nat :=
  (signatureOf ctx d {}).2.errors.count err

theorem Check.Gives.inSignature {ctx : Context} {d : Located Decl} {t : Ty} {es : List TypeError}
    (found : Gives (signatureOf ctx d) t es) : inSignature err ctx d = es.count err := by
  obtain ⟨-, added, -⟩ := found {} .start
  rw [Typing.inSignature, added]
  rfl

theorem signatureOf_alike {ctx ctx' : Context} (same : ctx.SameTypes ctx') (d : Located Decl) :
    Agree (Moved id) Eq (signatureOf ctx d) (signatureOf ctx' d) := by
  unfold signatureOf
  split
  · exact signature_alike same _ _ _
  · exact .same _

theorem signatureOf_gives (ctx : Context) (d : Located Decl) :
    ∃ t es, Gives (signatureOf ctx d) t es := by
  obtain ⟨t, _, es, found, -⟩ := (signatureOf_alike (.refl ctx) d).still
  exact ⟨t, es, found⟩

/-- A signature means the same wherever types do. -/
theorem inSignature_alike {ctx ctx' : Context} (same : ctx.SameTypes ctx') (d : Located Decl) :
    inSignature err ctx' d = inSignature err ctx d := by
  obtain ⟨t, es, found⟩ := signatureOf_gives ctx d
  rw [found.inSignature, ((signatureOf_alike same d).carry found).inSignature]

theorem declaredResult_reports (ctx : Context) (result : Option (Located TypeExpr)) :
    Reports err (err.tally (result.elim [] TypeExpr.postOrder)) (declaredResult ctx result) := by
  cases result with
  | none => exact .answer _
  | some t => exact meaning_reports ctx t

theorem postOrderAll_params (params : List (String × Located TypeExpr)) :
    TypeExpr.postOrderAll (params.map (·.2)) = TypeExpr.postOrderFields params := by
  induction params with
  | nil => rfl
  | cons param params ih => rw [List.map_cons, TypeExpr.postOrderAll, TypeExpr.postOrderFields, ih]

theorem signatureOf_reports (ctx : Context) (d : Located Decl) :
    Reports err (err.tally (Decl.signatureNodes d)) (signatureOf ctx d) := by
  obtain ⟨d, position⟩ := d
  cases d with
  | function modifiers name generics params result =>
    rw [Decl.signatureNodes, err.tally_append, ← postOrderAll_params]
    exact (meanings_reports _ _).bind fun ts => (declaredResult_reports _ result).map _
  | _ => exact .answer _

theorem inSignature_le (ctx : Context) (d : Located Decl) :
    inSignature err ctx d ≤ err.tally (Decl.signatureNodes d) := by
  have signed : Reports err _ (signatureOf ctx d) := signatureOf_reports ctx d
  obtain ⟨t, es, found, few⟩ := signed
  rw [found.inSignature]
  exact few

end Signatures

section Declaring

theorem declare_reports (ctx : Context) (d : Located Decl) :
    Reports err (err.tally (Decl.inside d.node)) (declare ctx d.node) := by
  obtain ⟨d, position⟩ := d
  cases d with
  | function modifiers name generics params result throws locals body =>
    have signed : Reports err _ _ := signatureOf_reports ctx
      ⟨.function modifiers name generics params result throws locals body, position⟩
    refine (signed.map (ctx.bind name)).mono ?_
    simp only [Decl.inside, Decl.signatureNodes, err.tally_append]
    omega
  | typeAlias x t => exact (meaning_reports ctx t).map _
  | exceptionType t =>
    refine (meaning_reports ctx t).bind (n := 0) fun raised => ?_
    dsimp only
    split
    · exact (Reports.note ..).map _
    · exact .answer _
  | exceptionVariant l t => exact (meaning_reports ctx t).map _

/-- A declaration is looked at, or reported if its name is taken. -/
theorem declareAll_reports (ctx : Context) (names : List String) (ds : List (Located Decl)) :
    Reports err (err.tally (Decl.postOrderAll ds)) (declareAll ctx names ds) := by
  induction ds generalizing ctx names with
  | nil => exact .answer _
  | cons d ds ih =>
    obtain ⟨d, position⟩ := d
    have looked (names : List String) : Reports err
        (err.tally (Decl.postOrder ⟨d, position⟩) + err.tally (Decl.postOrderAll ds))
        (declare ctx d >>= fun ctx => declareAll ctx names ds) := by
      rw [Decl.postOrder, err.tally_append]
      exact (declare_reports ctx ⟨d, position⟩).left.bind fun ctx => ih ctx names
    rw [declareAll, Decl.postOrderAll, err.tally_append]
    split
    · exact looked names
    split
    · have own := err.own_le_here position
      have share : err.share (.decl ⟨d, position⟩) = err.here position := rfl
      refine ((Reports.report_self rfl position).bind fun _ => ih ctx names).mono ?_
      rw [Decl.postOrder, err.tally_append, err.tally_single]
      omega
    · exact looked _

/-- What declaring some functions adds: the errors of the signatures of those whose names are new, and
one error for each other at most. No type changes its meaning by it. -/
theorem declareAll_functions (err : TypeError) (ctx : Context) (names : List String) {ds : List (Located Decl)}
    (functions : ∀ d ∈ ds, d.node.isFunction = true) :
    ∃ answer es taken, Gives (declareAll ctx names ds) answer es ∧ ctx.SameTypes answer.1 ∧
      es.count err = taken + ((Decl.firsts names ds).map (inSignature err ctx)).sum ∧
      taken ≤ (ds.map fun d => err.here d.position).sum := by
  induction ds generalizing ctx names with
  | nil => exact ⟨_, [], 0, .answer _, .refl ctx, rfl, Nat.le_refl 0⟩
  | cons d ds ih =>
    have functions' := fun e member => functions e (List.mem_cons_of_mem d member)
    obtain ⟨x, named⟩ := name_of_isFunction (functions d List.mem_cons_self)
    rw [declareAll, Decl.firsts, named, List.map_cons, List.sum_cons]
    dsimp only
    split
    · obtain ⟨answer, es, taken, found, same, total, few⟩ := ih ctx names functions'
      have duplicate : Reports err (err.own d.position) (Check.report (.duplicateDeclaration x) d.position) :=
        .report_self rfl _
      obtain ⟨_, fs, reported, once⟩ := duplicate
      refine ⟨answer, fs ++ es, fs.count err + taken, reported.bind found, same, ?_, ?_⟩
      · rw [List.count_append]
        omega
      · have own := err.own_le_here d.position
        omega
    · obtain ⟨d, position⟩ := d
      cases d with
      | function modifiers f generics params result throws locals body =>
        obtain ⟨t, es, signed⟩ := signatureOf_gives ctx
          ⟨.function modifiers f generics params result throws locals body, position⟩
        obtain ⟨answer, fs, taken, found, same, total, few⟩ := ih (ctx.bind f t) (x :: names) functions'
        have bound := Context.SameTypes.bind ctx f t
        have declared : Gives (declare ctx (.function modifiers f generics params result throws locals body))
            (ctx.bind f t) (es ++ []) := signed.bind (.answer (ctx.bind f t))
        refine ⟨answer, es ++ [] ++ fs, taken, declared.bind found, bound.trans same, ?_, ?_⟩
        · rw [List.append_nil, List.count_append, total, ← signed.inSignature, List.map_cons, List.sum_cons]
          have unchanged : (Decl.firsts (x :: names) ds).map (inSignature err (ctx.bind f t)) =
              (Decl.firsts (x :: names) ds).map (inSignature err ctx) :=
            List.map_congr_left fun e _ => inSignature_alike bound e
          rw [unchanged]
          omega
        · omega
      | _ => cases functions _ List.mem_cons_self

end Declaring

section Sums

/-- Numbers of a part of a list and of the rest of it, and bounds on each of them. -/
theorem sum_sublist {part whole : List α} (sub : part.Sublist whole) {less greater : α → Nat}
    (le : ∀ a, less a ≤ greater a) :
    ∃ rest, (whole.map less).sum = (part.map less).sum + rest ∧
      (part.map less).sum ≤ (part.map greater).sum ∧
      (part.map greater).sum + rest ≤ (whole.map greater).sum := by
  induction sub with
  | slnil => exact ⟨0, rfl, Nat.le_refl 0, Nat.le_refl 0⟩
  | @cons part whole a sub ih =>
    obtain ⟨rest, total, few, bound⟩ := ih
    have first := le a
    refine ⟨rest + less a, ?_, few, ?_⟩
    · rw [List.map_cons, List.sum_cons]
      omega
    · rw [List.map_cons, List.sum_cons]
      omega
  | @cons_cons part whole a sub ih =>
    obtain ⟨rest, total, few, bound⟩ := ih
    have first := le a
    simp only [List.map_cons, List.sum_cons]
    exact ⟨rest, by omega, by omega, by omega⟩

theorem tally_flatMap (err : TypeError) (nodes : α → List Node) (l : List α) :
    err.tally (l.flatMap nodes) = (l.map fun a => err.tally (nodes a)).sum := by
  induction l with
  | nil => rfl
  | cons a l ih => rw [List.flatMap_cons, err.tally_append, ih, List.map_cons, List.sum_cons]

/-- Only the functions of a block count if all else counts as nothing. -/
theorem sum_functions {f : Located Decl → Nat} (other : ∀ d, d.node.isFunction = false → f d = 0)
    (ds : List (Located Decl)) :
    (ds.map f).sum = ((ds.filter (·.node.isFunction)).map f).sum := by
  induction ds with
  | nil => rfl
  | cons d ds ih =>
    rw [List.map_cons, List.sum_cons, ih]
    cases function : d.node.isFunction with
    | true => rw [List.filter_cons_of_pos (by simp [function]), List.map_cons, List.sum_cons]
    | false => rw [List.filter_cons_of_neg (by simp [function]), other d function, Nat.zero_add]

/-- The nodes of a block are those of its functions and those of the other declarations. -/
theorem tally_block (err : TypeError) (ds : List (Located Decl)) :
    err.tally (Decl.postOrderAll ds) =
      err.tally (Decl.postOrderAll (ds.filter (!·.node.isFunction))) +
        err.tally (Decl.postOrderAll (ds.filter (·.node.isFunction))) := by
  induction ds with
  | nil => rfl
  | cons d ds ih =>
    rw [Decl.postOrderAll, err.tally_append, ih]
    cases function : d.node.isFunction with
    | true =>
      rw [List.filter_cons_of_neg (by simp [function]), List.filter_cons_of_pos (by simp [function]),
        Decl.postOrderAll, err.tally_append]
      omega
    | false =>
      rw [List.filter_cons_of_pos (by simp [function]), List.filter_cons_of_neg (by simp [function]),
        Decl.postOrderAll, err.tally_append]
      omega

/-- The nodes of a function are those of its signature, the others below it, and itself. -/
theorem tally_functions (err : TypeError) {ds : List (Located Decl)}
    (functions : ∀ d ∈ ds, d.node.isFunction = true) :
    err.tally (Decl.postOrderAll ds) =
      err.tally (ds.flatMap Decl.signatureNodes) + err.tally (ds.flatMap Decl.otherNodes) +
        (ds.map fun d => err.here d.position).sum := by
  induction ds with
  | nil => rfl
  | cons d ds ih =>
    have rest := ih fun e member => functions e (List.mem_cons_of_mem d member)
    obtain ⟨d, position⟩ := d
    cases d with
    | function =>
      have share (d : Decl) : err.share (.decl ⟨d, position⟩) = err.here position := rfl
      rw [Decl.postOrderAll, err.tally_append, rest, Decl.postOrder, err.tally_append, err.tally_single, share]
      simp only [Decl.inside, Decl.signatureNodes, Decl.otherNodes, List.flatMap_cons, List.map_cons,
        List.sum_cons, err.tally_append]
      omega
    | _ => cases functions _ List.mem_cons_self

end Sums

section Blocks

/-- The parameters of a function mean the same, one after the other, whether they are bound or not. -/
theorem bindParams_meanings (ctx : Context) (params : List (String × Located TypeExpr)) :
    ∃ answer es, Gives (bindParams ctx params) answer es ∧
      Gives (meanings ctx (params.map (·.2))) answer.2 es ∧ ctx.SameTypes answer.1 := by
  induction params generalizing ctx with
  | nil => exact ⟨_, [], .answer _, .answer _, .refl ctx⟩
  | cons param params ih =>
    obtain ⟨x, t⟩ := param
    obtain ⟨u, _, es, found, -⟩ := (declaredResult_alike (.refl ctx) (some t)).still
    obtain ⟨answer, fs, bound, known, same⟩ := ih (ctx.bind x u)
    have binding := Context.SameTypes.bind ctx x u
    have known' := (meanings_alike binding.symm _).carry known
    exact ⟨(answer.1, u :: answer.2), es ++ (fs ++ []), found.bind (bound.bind (.answer _)),
      found.bind (known'.bind (.answer _)), binding.trans same⟩

/-- To check a function, its parameters and its result are given their meanings again. -/
theorem signature_again (ctx : Context) (generics : Option (List String))
    (params : List (String × Located TypeExpr)) (result : Option (Located TypeExpr)) :
    ∃ answer r t es fs, Gives (bindParams (ctx.push.bindTypeVars (generics.getD [])) params) answer es ∧
      Gives (declaredResult answer.1 result) r fs ∧
      Gives (signature ctx generics params result) t (es ++ fs) := by
  obtain ⟨answer, es, bound, known, same⟩ :=
    bindParams_meanings (ctx.push.bindTypeVars (generics.getD [])) params
  obtain ⟨r, _, fs, found, -⟩ := (declaredResult_alike (.refl answer.1) result).still
  have signed (inner : Context) (alike : inner.SameTypes (ctx.push.bindTypeVars (generics.getD []))) :
      Gives (meanings inner (params.map (·.2))) answer.2 es ∧
        Gives (declaredResult inner result) r fs :=
    ⟨(meanings_alike alike.symm _).carry known,
      (declaredResult_alike (alike.trans same).symm result).carry found⟩
  cases generics with
  | none =>
    obtain ⟨params', result'⟩ := signed ctx ⟨rfl, fun _ => rfl⟩
    have whole : Gives (signature ctx none params result) (.arrow answer.2 r) (es ++ (fs ++ [])) :=
      params'.bind (result'.bind (.answer _))
    rw [List.append_nil] at whole
    exact ⟨answer, r, _, es, fs, bound, found, whole⟩
  | some xs =>
    obtain ⟨params', result'⟩ := signed (ctx.push.bindTypeVars xs) (.refl _)
    have whole : Gives (signature ctx (some xs) params result) (.forAll xs (.arrow answer.2 r))
        (es ++ (fs ++ [])) := params'.bind (result'.bind (.answer _))
    rw [List.append_nil] at whole
    exact ⟨answer, r, _, es, fs, bound, found, whole⟩

/-- What is found in the functions of a block, apart from what their own signatures give again. -/
def Checked (err : TypeError) (ds : List (Located Decl)) : Prop :=
  ∀ ctx, ∃ es rest, Gives (checkDecls ctx ds) () es ∧
    es.count err = (ds.map (inSignature err ctx)).sum + rest ∧
    Doubling (err.tally (Decl.innerSignaturesAll ds)) (err.tally (ds.flatMap Decl.otherNodes)) rest

/-- The errors of the signatures of a block: of those that it makes known, and of the others. -/
theorem inSignature_firsts (err : TypeError) (ctx : Context) (block : List (Located Decl)) :
    ∃ rest, (block.map (inSignature err ctx)).sum =
        ((Decl.firsts [] (block.filter (·.node.isFunction))).map (inSignature err ctx)).sum + rest ∧
      ((Decl.firsts [] (block.filter (·.node.isFunction))).map (inSignature err ctx)).sum ≤
        err.tally (Decl.signatures block) ∧
      err.tally (Decl.signatures block) + rest ≤
        err.tally ((block.filter (·.node.isFunction)).flatMap Decl.signatureNodes) := by
  have other : ∀ d, d.node.isFunction = false → inSignature err ctx d = 0 := by
    rintro ⟨d, position⟩ other
    cases d <;> first | rfl | contradiction
  have known := Decl.firsts_sublist [] (block.filter (·.node.isFunction))
  rw [sum_functions other, Decl.signatures, tally_flatMap, tally_flatMap]
  exact sum_sublist known (inSignature_le ctx)

/-- A block finds an error in pairs only in the signatures that it makes known. -/
theorem block_doubling {block : List (Located Decl)} (checked : Checked err block) (ctx : Context) :
    ∃ inner es fs, Gives (declareBlock ctx block) inner es ∧ Gives (checkDecls inner block) () fs ∧
      Doubling (err.tally (Decl.allSignatures block)) (err.tally (Decl.postOrderAll block))
        (es.count err + fs.count err) := by
  have functions : ∀ d ∈ block.filter (·.node.isFunction), d.node.isFunction = true :=
    fun d member => (List.mem_filter.mp member).2
  have declaredFirst : Reports err _ _ := declareAll_reports ctx [] (block.filter (!·.node.isFunction))
  obtain ⟨⟨outer, types⟩, es, others, few⟩ := declaredFirst
  obtain ⟨⟨inner, names⟩, fs, taken, declared, same, total, few'⟩ :=
    declareAll_functions err outer [] functions
  obtain ⟨gs, later, found, total', once, again, total'', few'', bound⟩ := checked inner
  have declaring : Gives (declareBlock ctx block) inner (es ++ (fs ++ ([] ++ []))) :=
    others.bind (declared.bind ((Gives.note _ _ _).bind (.answer inner)))
  -- Types mean the same when the functions are checked, so each signature has the errors it had.
  have unchanged : block.map (inSignature err inner) = block.map (inSignature err outer) :=
    List.map_congr_left fun d _ => inSignature_alike same d
  obtain ⟨rest, all, pairs, room⟩ := inSignature_firsts err outer block
  rw [unchanged, all] at total'
  have other : ∀ d, d.node.isFunction = false → err.tally (Decl.otherNodes d) = 0 := by
    rintro ⟨d, position⟩ other
    cases d <;> first | rfl | contradiction
  rw [tally_flatMap, sum_functions other, ← tally_flatMap] at bound
  have nodes := tally_block err block
  rw [tally_functions err functions] at nodes
  let known := Decl.firsts [] (block.filter (·.node.isFunction))
  refine ⟨inner, _, gs, declaring, found, es.count err + taken + rest + once,
    (known.map (inSignature err outer)).sum + again, ?_, ?_, ?_⟩
  · simp only [List.count_append, List.count_nil, known]
    omega
  · rw [Decl.allSignatures, err.tally_append]
    exact Nat.add_le_add pairs few''
  · rw [Decl.allSignatures, err.tally_append]
    omega

mutual

theorem checkDecl_doubling (err : TypeError) (ctx : Context) (d : Located Decl) :
    ∃ es rest, Gives (checkDecl ctx d) () es ∧ es.count err = inSignature err ctx d + rest ∧
      Doubling (err.tally (Decl.innerSignatures d)) (err.tally (Decl.otherNodes d)) rest := by
  obtain ⟨d, position⟩ := d
  exact checkDeclNode_doubling err ctx position d
termination_by structural d

/-- A function that is checked finds the errors of its signature once more. -/
theorem checkDeclNode_doubling (err : TypeError) (ctx : Context) (position : Option Position)
    (d : Decl) :
    ∃ es rest, Gives (checkDeclNode ctx d) () es ∧
      es.count err = inSignature err ctx ⟨d, position⟩ + rest ∧
      Doubling (err.tally (Decl.innerSignatures ⟨d, position⟩))
        (err.tally (Decl.otherNodes ⟨d, position⟩)) rest := by
  cases d with
  | function modifiers name generics params result throws locals body =>
    obtain ⟨⟨inner, ts⟩, r, t, es, fs, bound, found, signed⟩ :=
      signature_again ctx generics params result
    have raised : Reports err _ _ := meanings_reports inner throws
    obtain ⟨_, gs, thrown, few⟩ := raised
    obtain ⟨block, hs, is, declared, checked, doubled⟩ :=
      block_doubling (checkDecls_doubling err locals) inner
    have judged : Reports err _ _ := (synth_reports block body).judged fun t =>
      .require block t r body.position
    obtain ⟨_, js, typed, few'⟩ := judged
    refine ⟨es ++ (gs ++ (fs ++ (hs ++ (is ++ js)))),
      gs.count err + (hs.count err + is.count err + js.count err), ?_, ?_, ?_⟩
    · have started : Gives (Check.note .debug declTopic ("checking function " ++ name)) () [] :=
        .note _ _ _
      exact started.bind
        (bound.bind (thrown.bind (found.bind (declared.bind (checked.bind typed)))))
    · have again : inSignature err ctx
          ⟨.function modifiers name generics params result throws locals body, position⟩ =
          (es ++ fs).count err := Gives.inSignature signed
      simp only [List.count_append] at again ⊢
      omega
    · have sum := (Doubling.of_le few).add (doubled.add (.of_le few'))
      rw [Nat.zero_add, Nat.add_zero, Decl.allSignatures] at sum
      rw [Decl.innerSignatures, Decl.otherNodes, List.append_assoc, err.tally_append _ (_ ++ _),
        err.tally_append (Decl.postOrderAll locals)]
      exact sum
  | typeAlias | exceptionType | exceptionVariant =>
    rw [Decl.innerSignatures, Decl.otherNodes]
    exact ⟨[], 0, .answer (), rfl, .of_le (Nat.zero_le _)⟩
termination_by structural d

theorem checkDecls_doubling (err : TypeError) (ds : List (Located Decl)) : Checked err ds := by
  intro ctx
  match ds with
  | [] =>
    rw [Decl.innerSignaturesAll]
    exact ⟨[], 0, .answer (), rfl, .of_le (Nat.zero_le _)⟩
  | d :: ds =>
    obtain ⟨es, rest, found, total, doubled⟩ := checkDecl_doubling err ctx d
    obtain ⟨fs, rest', found', total', doubled'⟩ := checkDecls_doubling err ds ctx
    refine ⟨es ++ fs, rest + rest', (found.bind found').guarded (), ?_, ?_⟩
    · rw [List.count_append, List.map_cons, List.sum_cons]
      omega
    · rw [Decl.innerSignaturesAll, err.tally_append, List.flatMap_cons, err.tally_append]
      exact doubled.add doubled'
termination_by structural ds

end

end Blocks

section Programs

/-- What a program without a `main` has in an error, apart from its nodes. -/
def noMain (err : TypeError) : Nat :=
  if Fault.missingMain.at none = err then 1 else 0

theorem checkModule_doubling (err : TypeError) (ctx : Context) (block : List (Located Decl)) :
    ∃ answer es, Gives (checkModule ctx block) answer es ∧
      Doubling (err.tally (Decl.allSignatures block)) (err.tally (Decl.postOrderAll block) + noMain err)
        (es.count err) := by
  obtain ⟨inner, es, fs, declared, checked, doubled⟩ :=
    block_doubling (checkDecls_doubling err block) ctx
  have whole : Gives (checkBlock ctx block) inner (es ++ (fs ++ [])) :=
    declared.bind (checked.bind (.answer inner))
  have last : Reports err (noMain err) (do
      if (inner.scope.lookup "main").isNone then
        let _ ← Check.report .missingMain none
      return inner) := by
    split
    · exact (Reports.report fun this => by rw [noMain, if_pos this]).map _
    · exact .answer _
  obtain ⟨answer, gs, found, few⟩ := last
  refine ⟨answer, _, whole.bind found, ?_⟩
  rw [List.append_nil, List.count_append, List.count_append]
  exact doubled.add (.of_le few)

theorem checking_doubling (err : TypeError) (c : Checker) (p : Located Program) :
    ∃ answer es, Gives (c.checking p) answer es ∧
      Doubling (err.tally (Decl.allSignatures p.node.decls))
        (err.tally (Decl.postOrderAll p.node.decls) + noMain err) (es.count err) := by
  let mode := p.node.hasExtension Checker.subtypingExtension
  obtain ⟨answer, es, found, doubled⟩ :=
    checkModule_doubling err ((c.setSubtyping mode).within {}) p.node.decls
  refine ⟨answer, es, ?_, doubled⟩
  unfold Checker.checking
  dsimp only
  split
  · exact (Gives.note _ _ _).bind found
  · exact found

theorem checkProgram_doubling (err : TypeError) (p : Located Program) :
    Doubling (err.tally (Decl.allSignatures p.node.decls))
      (err.tally (Decl.postOrderAll p.node.decls) + noMain err) ((checkProgram p).count err) := by
  obtain ⟨answer, es, whole, doubled⟩ := checking_doubling err {} p
  rwa [whole.checkProgram]

/-- A program each node of which has a place of its own, and whose patterns name no field twice. -/
structure Distinct (p : Located Program) : Prop where
  placed : ∀ n ∈ Program.postOrder p, n.position ≠ none
  apart : ((Program.postOrder p).map Node.position).Nodup
  labels : ∀ n ∈ Program.postOrder p, n.fieldLabels.Nodup

theorem chances_le_one (fault : Fault) {n : Node} (labels : n.fieldLabels.Nodup) :
    fault.chances n ≤ 1 := by
  unfold Fault.chances
  split
  · exact List.nodup_iff_count_le_one.mp labels _
  · exact Nat.le_refl 1

/-- So an error is found at most as often as nodes stand at its place. -/
theorem tally_le_count (err : TypeError) {ns : List Node} (labels : ∀ n ∈ ns, n.fieldLabels.Nodup) :
    err.tally ns ≤ (ns.map Node.position).count err.position := by
  induction ns with
  | nil => exact Nat.le_refl 0
  | cons n ns ih =>
    have rest := ih fun m member => labels m (List.mem_cons_of_mem n member)
    have once := chances_le_one err.fault (labels n List.mem_cons_self)
    have step : err.tally (n :: ns) = err.share n + err.tally ns := rfl
    rw [step, List.map_cons, List.count_cons, TypeError.share]
    simp only [beq_iff_eq]
    split <;> omega

theorem tally_eq_zero {ns : List Node} (elsewhere : err.position ∉ ns.map Node.position) :
    err.tally ns = 0 := by
  induction ns with
  | nil => rfl
  | cons n ns ih =>
    obtain ⟨other, others⟩ := not_or.mp (List.mem_cons.not.mp elsewhere)
    have step : err.tally (n :: ns) = err.share n + err.tally ns := rfl
    rw [step, TypeError.share, if_neg fun same => other same.symm, ih others]

/-- An annotation stands where it stands, so it has its share in an error there. -/
theorem tally_pos {ns : List Node} (types : ∀ n ∈ ns, ∃ t, n = .type t)
    (there : err.position ∈ ns.map Node.position) : 0 < err.tally ns := by
  obtain ⟨n, member, same⟩ := List.mem_map.mp there
  obtain ⟨t, rfl⟩ := types n member
  have share : err.share (.type t) = 1 := by
    rw [TypeError.share, if_pos same]
    rfl
  have part : err.share (.type t) ∈ ns.map err.share := List.mem_map_of_mem member
  have le := List.single_le_sum (fun _ _ => Nat.zero_le _) _ part
  rw [TypeError.tally]
  omega

/-- An error is found once for each place that it stands at. -/
theorem Distinct.at_most_one {p : Located Program} (distinct : Distinct p) (err : TypeError) :
    err.tally (Decl.postOrderAll p.node.decls) + noMain err ≤ 1 := by
  have inside : ∀ n ∈ Decl.postOrderAll p.node.decls, n ∈ Program.postOrder p :=
    fun n member => List.mem_append_left _ member
  by_cases whole : Fault.missingMain.at none = err
  · have nowhere : err.position ∉ (Decl.postOrderAll p.node.decls).map Node.position := by
      intro there
      obtain ⟨n, member, same⟩ := List.mem_map.mp there
      exact distinct.placed n (inside n member) (by rw [same, ← whole]; rfl)
    rw [tally_eq_zero nowhere, noMain, if_pos whole]
  · have sub : (Decl.postOrderAll p.node.decls).Sublist (Program.postOrder p) :=
      List.sublist_append_left ..
    have apart := distinct.apart.sublist (sub.map Node.position)
    have once := List.nodup_iff_count_le_one.mp apart err.position
    have few := tally_le_count err fun n member => distinct.labels n (inside n member)
    rw [noMain, if_neg whole]
    omega

/-- Which errors a program reports twice. If all nodes have places of their own and no pattern names a
field twice, an error stands twice in the list if it stands in an annotation of a parameter or of the
result of a function that is the first of its name in its block, and once if it stands elsewhere. -/
theorem twice_iff_in_signature {p : Located Program} (distinct : Distinct p) :
    (∀ e ∈ checkProgram p, (checkProgram p).count e =
      if e.position ∈ (Decl.allSignatures p.node.decls).map Node.position then 2 else 1) ∧
    ((checkProgram p).Nodup ↔
      ∀ e ∈ checkProgram p, e.position ∉ (Decl.allSignatures p.node.decls).map Node.position) := by
  have counts : ∀ e ∈ checkProgram p, (checkProgram p).count e =
      if e.position ∈ (Decl.allSignatures p.node.decls).map Node.position then 2 else 1 := by
    intro e reported
    obtain ⟨once, again, total, few, bound⟩ := checkProgram_doubling e p
    have most := distinct.at_most_one e
    have some := List.count_pos_iff.mpr reported
    split
    · have there := tally_pos (fun n => Decl.type_of_mem_allSignatures) ‹_›
      omega
    · have elsewhere := tally_eq_zero ‹_›
      omega
  refine ⟨counts, ?_⟩
  rw [List.nodup_iff_count_eq_one]
  refine forall₂_congr fun e reported => ?_
  rw [counts e reported]
  split <;> simp_all

/-- A program that names no type `Q` and no variable `y`, each node at a place of its own:
`fn main(x : Q) -> Nat { return y }`. -/
def unknownNames : Located Program :=
  ⟨⟨[], [⟨.function [] "main" none [("x", ⟨.var "Q", some ⟨1, 13, 12⟩⟩)]
    (some ⟨.nat, some ⟨1, 19, 18⟩⟩) [] [] ⟨.var "y", some ⟨2, 10, 33⟩⟩, some ⟨1, 1, 0⟩⟩]⟩,
    some ⟨0, 0, 0⟩⟩

theorem unknownNames_distinct : Distinct unknownNames :=
  ⟨by decide, by decide, by decide⟩

/-- The type that is not known is reported twice, and the variable once. -/
theorem unknownNames_reported :
    Distinct unknownNames ∧
      (checkProgram unknownNames).count ⟨.undefinedVariable "Q", some ⟨1, 13, 12⟩⟩ = 2 ∧
      (checkProgram unknownNames).count ⟨.undefinedVariable "y", some ⟨2, 10, 33⟩⟩ = 1 := by
  have counts := (twice_iff_in_signature unknownNames_distinct).1
  have unknownType : ⟨.undefinedVariable "Q", some ⟨1, 13, 12⟩⟩ ∈ checkProgram unknownNames := by
    decide +kernel
  have unknownVariable : ⟨.undefinedVariable "y", some ⟨2, 10, 33⟩⟩ ∈ checkProgram unknownNames := by
    decide +kernel
  exact ⟨unknownNames_distinct, (counts _ unknownType).trans (if_pos (by decide +kernel)),
    (counts _ unknownVariable).trans (if_neg (by decide +kernel))⟩

/-- So its errors are not pairwise different. -/
theorem unknownNames_repeats :
    Distinct unknownNames ∧
      checkProgram unknownNames = [⟨.undefinedVariable "Q", some ⟨1, 13, 12⟩⟩,
        ⟨.undefinedVariable "Q", some ⟨1, 13, 12⟩⟩, ⟨.undefinedVariable "y", some ⟨2, 10, 33⟩⟩] ∧
      ¬(checkProgram unknownNames).Nodup :=
  ⟨unknownNames_distinct, by decide +kernel, by decide +kernel⟩

end Programs

end StellaLang.Typing
