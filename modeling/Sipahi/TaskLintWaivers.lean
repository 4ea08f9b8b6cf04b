import Sipahi.TaskLintVisitor

/-!
# What the waivers excuse

A waived construct should be compiled out when the waived features are off. The visitor decides by
the text of the `cfg` attributes, so that is a condition on the predicates behind the text.
-/
namespace TaskLintWaivers

open ScopedTree TaskLintVisitor

/-! ## The compiled source -/

def isParen : NodeKind → Bool
  | .paren => true
  | _ => false

/-- The node itself, or what parentheses stand around, is of the wanted kind. -/
def throughParens (want : NodeKind → Bool) : Node → Bool
  | .node label [inner] => want label.kind || (isParen label.kind && throughParens want inner)
  | .node label _ => want label.kind

def isIntLiteral : NodeKind → Bool
  | .intLiteral => true
  | _ => false

def isTypePtr : NodeKind → Bool
  | .typePtr => true
  | _ => false

/-- An integer literal cast to a raw pointer type; parentheses change nothing. -/
def castsLiteral : List Node → Bool
  | operand :: ty :: _ => throughParens isIntLiteral operand && throughParens isTypePtr ty
  | _ => false

/-- Unsafe blocks, `asm` and `global_asm` macros, `extern crate alloc`, paths into
`core::sync::atomic` and literal addresses, wherever they stand. -/
def forbidden : Node → Bool
  | .node label parts =>
    match label.kind with
    | .exprUnsafe => true
    | .item (.externCrateItem ident) => ident == "alloc"
    | .item (.useItem tree) => (collectUsePaths [] tree).any startsWithAtomic
    | .item (.macroItem path) | .memberItem (some path) | .exprMacro path | .stmtMacro path
    | .typeMacro path => isAsmMacro path
    | .exprPath path | .typePath path | .otherPath path => startsWithAtomic path
    | .exprCast => castsLiteral parts
    | _ => false

/-- Items and blocks are what a `cfg` predicate removes. -/
def isItemOrBlock : NodeKind → Bool
  | .item _ | .memberItem _ | .exprBlock | .exprUnsafe | .otherBlock => true
  | _ => false

def kept (setting : CfgSetting) (label : Label) : Bool :=
  !isItemOrBlock label.kind || label.attrs.all (Attribute.enabled setting)

/-- What stands in place of a removed node. -/
def removedLabel : Label := ⟨.other, []⟩

/-- The source without the items and blocks whose predicate is false. -/
def compiled (setting : CfgSetting) (file : Node) : Node := prune (kept setting) removedLabel file

def WaivedOff (demoWaivers : List String) (setting : CfgSetting) : Prop :=
  ∀ waiver ∈ demoWaivers, setting "feature" (some waiver) = false

def Clean (file : Node) : Prop := ∀ path sub, Occurs path sub file → forbidden sub = false

/-- The node is a scope in which the visitor waives what it counts. -/
def opensWaived (demoWaivers : List String) (label : Label) : Bool :=
  isWaivedCfg demoWaivers (scopeAttrs label)

/-- The visitor passes over a construct: it is in a waived scope, or no method counts it. -/
def PassedOver (demoWaivers : List String) (path : List Label) (sub : Node) : Prop :=
  path.any (opensWaived demoWaivers) = true ∨ detections sub = []

/-- The predicates of the items and blocks on the way down imply a waived feature. -/
def ImplyWaiver (demoWaivers : List String) (path : List Label) : Prop :=
  ∀ setting, (∀ label ∈ path, kept setting label = true) →
    ∃ waiver ∈ demoWaivers, setting "feature" (some waiver) = true

/-! ## The counters -/

variable {demoWaivers : List String}

theorem bump_inWaivedScope (v : ForbiddenVisitor) (kind : Kind) :
    (v.bump kind).inWaivedScope = v.inWaivedScope := by
  rw [ForbiddenVisitor.bump]
  split
  · rfl
  · rfl

theorem bump_violations (v : ForbiddenVisitor) (kind k : Kind) :
    (v.bump kind).violations k =
      v.violations k + [(decide (0 < v.inWaivedScope), kind)].count (false, k) := by
  rw [ForbiddenVisitor.bump]
  split
  · rename_i hscope
    simp [hscope]
  · rename_i hscope
    by_cases hk : k = kind
    · simp [hscope, hk]
    · have hkind : ¬kind = k := fun h => hk h.symm
      simp [hscope, hk, hkind]

theorem foldl_bump (kinds : List Kind) (v : ForbiddenVisitor) :
    (kinds.foldl ForbiddenVisitor.bump v).inWaivedScope = v.inWaivedScope ∧
      ∀ k, (kinds.foldl ForbiddenVisitor.bump v).violations k = v.violations k +
        (kinds.map fun kind => (decide (0 < v.inWaivedScope), kind)).count (false, k) := by
  induction kinds generalizing v with
  | nil => simp
  | cons kind kinds ih =>
    obtain ⟨hscope, hviolations⟩ := ih (v.bump kind)
    rw [bump_inWaivedScope] at hscope hviolations
    refine ⟨hscope, ?_⟩
    intro k
    rw [List.foldl_cons, hviolations, bump_violations, List.map_cons]
    simp only [List.count_cons, List.count_nil]
    omega

theorem visitAll_violations {parts : List Node}
    (ih : ∀ part ∈ parts, ∀ v : ForbiddenVisitor,
      (visit demoWaivers v part).inWaivedScope = v.inWaivedScope ∧
        ∀ k, (visit demoWaivers v part).violations k = v.violations k +
          (walk (opensWaived demoWaivers) detections (decide (0 < v.inWaivedScope)) part).count
            (false, k)) (v : ForbiddenVisitor) :
    (visitAll demoWaivers v parts).inWaivedScope = v.inWaivedScope ∧
      ∀ k, (visitAll demoWaivers v parts).violations k = v.violations k +
        (walkAll (opensWaived demoWaivers) detections (decide (0 < v.inWaivedScope)) parts).count
          (false, k) := by
  induction parts generalizing v with
  | nil => simp [visitAll, walkAll]
  | cons part parts ihparts =>
    obtain ⟨hscope, hviolations⟩ := ih part List.mem_cons_self v
    obtain ⟨hscopes, hcounts⟩ := ihparts (fun p hp => ih p (List.mem_cons_of_mem _ hp))
      (visit demoWaivers v part)
    rw [hscope] at hscopes hcounts
    refine ⟨hscopes, ?_⟩
    intro k
    rw [visitAll, hcounts, hviolations, walkAll, List.count_append, Nat.add_assoc]

theorem visit_violations (node : Node) (v : ForbiddenVisitor) :
    (visit demoWaivers v node).inWaivedScope = v.inWaivedScope ∧
      ∀ k, (visit demoWaivers v node).violations k = v.violations k +
        (walk (opensWaived demoWaivers) detections (decide (0 < v.inWaivedScope)) node).count
          (false, k) := by
  induction node using LabelTree.induction_parts generalizing v with
  | step label parts ih =>
    have hbody (u : ForbiddenVisitor) := visitAll_violations ih
      ((detections (.node label parts)).foldl ForbiddenVisitor.bump u)
    simp only [foldl_bump] at hbody
    rw [visit, walk, opensWaived]
    simp only [List.count_append]
    by_cases hwaived : isWaivedCfg demoWaivers (scopeAttrs label) = true
    · obtain ⟨hscope, hcounts⟩ := hbody { v with inWaivedScope := v.inWaivedScope + 1 }
      simp only [hwaived, if_true, Bool.or_true]
      refine ⟨by rw [hscope, Nat.add_sub_cancel], ?_⟩
      intro k
      rw [hcounts, Nat.add_assoc]
      simp
    · obtain ⟨hscope, hcounts⟩ := hbody v
      simp only [hwaived, Bool.or_false]
      refine ⟨hscope, ?_⟩
      intro k
      exact (hcounts k).trans (Nat.add_assoc _ _ _)

theorem countedRule_passes {rule failure waiver : String} {violations waived : ℕ}
    {r : LintResult} :
    (countedRule rule failure waiver violations waived r).rulesFailed = [] ↔
      violations = 0 ∧ r.rulesFailed = [] := by
  rw [countedRule]
  split
  · rename_i hpos
    simp only [LintResult.fail, List.append_eq_nil_iff, List.cons_ne_self, and_false, false_iff]
    omega
  · rename_i hzero
    have hnone : violations = 0 := by omega
    split
    · simp [hnone, LintResult.log, LintResult.pass]
    · simp [hnone, LintResult.pass]

theorem visitorRules_pass {waiverReason : String} {file : Node} :
    (visitorRules "safe" waiverReason demoWaivers file).rulesFailed = [] ↔
      ∀ kind, (visit demoWaivers {} file).violations kind = 0 := by
  have htier : ¬"safe" = trustedUnsafe := by decide
  simp only [visitorRules, mmioRule, atomicRule, asmRule, allocRule, unsafeRule, htier, if_false,
    countedRule_passes]
  constructor
  · rintro ⟨hmmio, hatomic, hasm, halloc, hunsafe, -⟩ kind
    cases kind with
    | unsafeKind => exact hunsafe
    | allocKind => exact halloc
    | asmKind => exact hasm
    | atomicKind => exact hatomic
    | mmioKind => exact hmmio
  · intro h
    exact ⟨h _, h _, h _, h _, h _, trivial⟩

theorem passedOver_of_pass {waiverReason : String} {file sub : Node} {path : List Label}
    (hpass : (visitorRules "safe" waiverReason demoWaivers file).rulesFailed = [])
    (hoccurs : Occurs path sub file) : PassedOver demoWaivers path sub := by
  by_contra hcounted
  rw [PassedOver, not_or, Bool.not_eq_true] at hcounted
  obtain ⟨kind, hkind⟩ := List.exists_mem_of_ne_nil _ hcounted.2
  have hentry : (false, kind) ∈ walk (opensWaived demoWaivers) detections false file :=
    (mem_walk _ _).mpr ⟨path, sub, hoccurs, hkind, by rw [hcounted.1]; rfl⟩
  have hcount : (visit demoWaivers {} file).violations kind = _ :=
    (visit_violations file {}).2 kind
  rw [visitorRules_pass.mp hpass kind] at hcount
  have hpos := List.count_pos_iff.mpr hentry
  simp only [Nat.lt_irrefl, decide_false] at hcount
  omega

/-! ## Pruning -/

theorem throughParens_false {want : NodeKind → Bool} {label : Label} (parts : List Node)
    (hwant : want label.kind = false) (hparen : isParen label.kind = false) :
    throughParens want (.node label parts) = false := by
  cases parts with
  | nil => simp [throughParens, hwant]
  | cons inner rest =>
    cases rest with
    | nil => simp [throughParens, hwant, hparen]
    | cons next rest => simp [throughParens, hwant]

theorem throughParens_prune {want : NodeKind → Bool} (hother : want .other = false)
    (hremain : ∀ kind, isItemOrBlock kind = true → want kind = false) (setting : CfgSetting)
    (node : Node) :
    throughParens want (prune (kept setting) removedLabel node) = throughParens want node := by
  induction node using LabelTree.induction_parts with
  | step label parts ih =>
    rw [prune]
    by_cases hkept : kept setting label = true
    · rw [if_pos hkept, pruneAll_eq_map]
      cases parts with
      | nil => rfl
      | cons inner rest =>
        cases rest with
        | nil => rw [List.map_singleton, throughParens, throughParens, ih inner (by simp)]
        | cons next rest => rfl
    · rw [if_neg hkept]
      have hblock : isItemOrBlock label.kind = true := by
        rw [kept, Bool.or_eq_true, not_or, Bool.not_eq_true, Bool.not_eq_false'] at hkept
        exact hkept.1
      have hparen : isParen label.kind = false := by
        cases hkind : label.kind with
        | paren =>
          rw [hkind] at hblock
          cases hblock
        | _ => rfl
      rw [throughParens_false parts (hremain _ hblock) hparen]
      exact hother

theorem castsLiteral_prune (setting : CfgSetting) (parts : List Node) :
    castsLiteral (pruneAll (kept setting) removedLabel parts) = castsLiteral parts := by
  rw [pruneAll_eq_map]
  cases parts with
  | nil => rfl
  | cons operand rest =>
  cases rest with
  | nil => rfl
  | cons ty rest =>
    have hliteral : throughParens isIntLiteral (prune (kept setting) removedLabel operand) =
        throughParens isIntLiteral operand := by
      apply throughParens_prune rfl
      intro kind hblock
      cases kind with
      | intLiteral => cases hblock
      | _ => rfl
    have hptr : throughParens isTypePtr (prune (kept setting) removedLabel ty) =
        throughParens isTypePtr ty := by
      apply throughParens_prune rfl
      intro kind hblock
      cases kind with
      | typePtr => cases hblock
      | _ => rfl
    simp only [List.map_cons, castsLiteral, hliteral, hptr]

theorem forbidden_prune (setting : CfgSetting) (label : Label) (parts : List Node) :
    forbidden (.node label (pruneAll (kept setting) removedLabel parts)) =
      forbidden (.node label parts) := by
  rw [forbidden, forbidden, castsLiteral_prune]

theorem not_removed_iff {setting : CfgSetting} {path : List Label} :
    (¬∃ label ∈ path, kept setting label = false) ↔ ∀ label ∈ path, kept setting label = true := by
  simp only [not_exists, not_and, Bool.not_eq_false]

theorem not_on_iff {setting : CfgSetting} :
    (¬∃ waiver ∈ demoWaivers, setting "feature" (some waiver) = true) ↔
      WaivedOff demoWaivers setting := by
  simp only [WaivedOff, not_exists, not_and, Bool.not_eq_true]

/-- The compiled source is clean exactly when every forbidden construct has a removed item or
block around it. -/
theorem clean_compiled_iff {setting : CfgSetting} {file : Node} :
    Clean (compiled setting file) ↔
      ∀ path sub, Occurs path sub file → forbidden sub = true →
        ∃ label ∈ path, kept setting label = false := by
  have hfound : (∃ path sub, Occurs path sub (prune (kept setting) removedLabel file) ∧
      forbidden sub = true) ↔ ∃ path sub, Occurs path sub file ∧ forbidden sub = true ∧
        ∀ label ∈ path, kept setting label = true :=
    exists_occurs_prune (by decide) fun label parts => by rw [forbidden_prune]
  constructor
  · intro hclean path sub hoccurs hforbidden
    by_contra hkept
    have hall := not_removed_iff.mp hkept
    obtain ⟨path', sub', hoccurs', hforbidden'⟩ := hfound.mpr ⟨path, sub, hoccurs, hforbidden, hall⟩
    rw [hclean path' sub' hoccurs'] at hforbidden'
    cases hforbidden'
  · intro hremoved path sub hoccurs
    by_contra hforbidden
    rw [Bool.not_eq_false] at hforbidden
    obtain ⟨path', sub', hoccurs', hforbidden', hall⟩ := hfound.mp ⟨path, sub, hoccurs, hforbidden⟩
    exact not_removed_iff.mpr hall (hremoved path' sub' hoccurs' hforbidden')

def demoFeature : CfgPredicate := .option "feature" (some ⟨"\"demo\"", "demo"⟩)

/-- `0x80800000 as *mut u8`. -/
def deviceAddress : Node :=
  .node ⟨.exprCast, []⟩ [.node ⟨.intLiteral, []⟩ [],
    .node ⟨.typePtr, []⟩ [.node ⟨.typePath ["u8"], []⟩ []]]

/-- `_start` with an unsafe block under the predicate, which writes to the device. -/
def gatedWrite (predicate : CfgPredicate) : Node :=
  .node ⟨.other, []⟩ [.node ⟨.item .fnItem, []⟩
    [.node ⟨.exprUnsafe, [⟨"cfg", .cfgList predicate⟩]⟩
      [.node ⟨.other, []⟩ [.node ⟨.exprPath ["core", "ptr", "write_volatile"], []⟩ [],
        deviceAddress, .node ⟨.intLiteral, []⟩ []]]]]

theorem gatedWrite_guarded {predicate : CfgPredicate} {path : List Label} {sub : Node}
    (hoccurs : Occurs path sub (gatedWrite predicate)) (hforbidden : forbidden sub = true) :
    (⟨.exprUnsafe, [⟨"cfg", .cfgList predicate⟩]⟩ : Label) ∈ path := by
  cases hoccurs with
  | here => cases hforbidden
  | part mem below =>
    cases List.mem_singleton.mp mem
    cases below with
    | here => cases hforbidden
    | part mem below =>
      cases List.mem_singleton.mp mem
      cases below with
      | here => simp
      | part mem below => simp

end TaskLintWaivers
