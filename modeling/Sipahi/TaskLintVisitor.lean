import Sipahi.ScopedTree
import Mathlib.Data.List.Infix
import Mathlib.Logic.Function.Basic

/-!
# The waiver rules of `task-lint`

`ForbiddenVisitor` walks over the syntax tree of a task's `main.rs` and counts what a safe task
must not contain. What stands below a `cfg` attribute whose text mentions a waived feature is
counted as waived. The tree is `syn`'s, reduced to what the visitor tells apart.
-/
namespace TaskLintVisitor

open ScopedTree

/-! ## `cfg` attributes -/

/-- A string literal as it is written and the string it stands for. -/
structure StrLit where
  text : String
  value : String
  deriving DecidableEq, Repr

inductive CfgPredicate where
  | all (predicates : List CfgPredicate) (trailingComma : Bool)
  | any (predicates : List CfgPredicate) (trailingComma : Bool)
  | not (predicate : CfgPredicate)
  | option (name : String) (value : Option StrLit)
  | literal (value : Bool)

/-- A setting of all `cfg` options, names alone and names with a value. -/
abbrev CfgSetting := String → Option String → Bool

mutual

def CfgPredicate.eval (setting : CfgSetting) : CfgPredicate → Bool
  | .all predicates _ => evalAll setting predicates
  | .any predicates _ => evalAny setting predicates
  | .not predicate => !predicate.eval setting
  | .option name value => setting name (value.map StrLit.value)
  | .literal value => value

def evalAll (setting : CfgSetting) : List CfgPredicate → Bool
  | [] => true
  | predicate :: predicates => predicate.eval setting && evalAll setting predicates

def evalAny (setting : CfgSetting) : List CfgPredicate → Bool
  | [] => false
  | predicate :: predicates => predicate.eval setting || evalAny setting predicates

end

/-- The tokens of a list, separated as the token stream prints them. -/
def listText (name : String) (texts : List String) (trailingComma : Bool) : String :=
  name ++ " (" ++ " , ".intercalate texts ++ (if trailingComma then " ,)" else ")")

mutual

/-- The text of the predicate's tokens. -/
def CfgPredicate.text : CfgPredicate → String
  | .all predicates trailingComma => listText "all" (texts predicates) trailingComma
  | .any predicates trailingComma => listText "any" (texts predicates) trailingComma
  | .not predicate => "not (" ++ predicate.text ++ ")"
  | .option name none => name
  | .option name (some value) => name ++ " = " ++ value.text
  | .literal value => if value then "true" else "false"

def texts : List CfgPredicate → List String
  | [] => []
  | predicate :: predicates => predicate.text :: texts predicates

end

/-- `syn::Meta`; of a list that is not a `cfg` predicate only the text matters. -/
inductive Meta where
  | cfgList (predicate : CfgPredicate)
  | otherList (tokens : String)
  | nameValue (string : Option String)
  | path (segments : List String)

structure Attribute where
  name : String
  content : Meta

def metaToString : Meta → String
  | .cfgList predicate => predicate.text
  | .otherList tokens => tokens
  | .nameValue (some string) => "= \"" ++ string ++ "\""
  | .nameValue none => ""
  | .path segments => "::".intercalate segments

/-- `str::contains`. -/
def contains (text pattern : String) : Bool := pattern.toList <:+: text.toList

def isWaivedCfg (demoWaivers : List String) (attrs : List Attribute) : Bool :=
  attrs.any fun attr => attr.name == "cfg" &&
    demoWaivers.any fun waiver =>
      contains (metaToString attr.content) ("feature = \"" ++ waiver ++ "\"")

/-- Whether the attribute lets what it stands at be compiled. -/
def Attribute.enabled (setting : CfgSetting) (attr : Attribute) : Bool :=
  match attr.content with
  | .cfgList predicate => attr.name != "cfg" || predicate.eval setting
  | _ => true

/-! ## The syntax tree -/

inductive UseTree where
  | path (ident : String) (tree : UseTree)
  | name (ident : String)
  | rename (ident newName : String)
  | glob
  | group (items : List UseTree)

inductive ItemKind where
  | fnItem
  | modItem
  | implItem
  | externCrateItem (ident : String)
  | useItem (tree : UseTree)
  | macroItem (path : List String)
  /-- Constants, statics, structs, enums, unions, traits, type aliases, foreign modules. -/
  | otherItem

/-- What a node of the tree is. Its parts are the nodes below it in the order of `syn::visit`. -/
inductive NodeKind where
  | item (kind : ItemKind)
  /-- An item of an `impl`, a trait or a foreign module; a macro there with its path. -/
  | memberItem (macroPath : Option (List String))
  | exprBlock
  | exprUnsafe
  /-- An `async` or `const` block. -/
  | otherBlock
  /-- Also in place of a pattern. -/
  | exprMacro (path : List String)
  | stmtMacro (path : List String)
  | typeMacro (path : List String)
  /-- Also in place of a pattern. -/
  | exprPath (path : List String)
  | typePath (path : List String)
  /-- The path of a struct expression or pattern, a trait bound, an `impl` header, a visibility,
  a macro. -/
  | otherPath (path : List String)
  /-- The operand and the type are its first two parts. -/
  | exprCast
  | intLiteral
  /-- Parentheses around an expression or a type. -/
  | paren
  | typePtr
  | other

structure Label where
  kind : NodeKind
  attrs : List Attribute

/-- Nodes of `syn`'s tree. -/
abbrev Node := LabelTree Label

/-! ## Paths -/

def isAsmName (name : String) : Bool := name == "asm" || name == "global_asm"

def isAsmMacro (path : List String) : Bool :=
  match path.reverse with
  | [last] => isAsmName last
  | last :: parent :: _ => parent == "arch" && isAsmName last
  | [] => false

/-- `path_starts_with` and `path_starts_with_strs`. -/
def pathStartsWith (path start : List String) : Bool := start.isPrefixOf path

def startsWithAtomic (path : List String) : Bool := pathStartsWith path ["core", "sync", "atomic"]

mutual

/-- The paths that `collect_use_paths` hands to its callback. -/
def collectUsePaths (stack : List String) : UseTree → List (List String)
  | .path ident tree => collectUsePaths (stack ++ [ident]) tree
  | .name ident => [stack ++ [ident]]
  | .rename ident _ => [stack ++ [ident]]
  | .glob => [stack]
  | .group items => collectGroup stack items

def collectGroup (stack : List String) : List UseTree → List (List String)
  | [] => []
  | item :: items => collectUsePaths stack item ++ collectGroup stack items

end

/-! ## The visitor -/

inductive Kind where
  | unsafeKind | allocKind | asmKind | atomicKind | mmioKind
  deriving DecidableEq, Repr

/-- The counters, one of each sort for every kind. -/
structure ForbiddenVisitor where
  inWaivedScope : ℕ := 0
  violations : Kind → ℕ := fun _ => 0
  waived : Kind → ℕ := fun _ => 0

def ForbiddenVisitor.bump (v : ForbiddenVisitor) (kind : Kind) : ForbiddenVisitor :=
  if 0 < v.inWaivedScope then
    { v with waived := Function.update v.waived kind (v.waived kind + 1) }
  else { v with violations := Function.update v.violations kind (v.violations kind + 1) }

/-- The attributes that `visit_item` and `visit_expr` look at. -/
def scopeAttrs (label : Label) : List Attribute :=
  match label.kind with
  | .item .otherItem => []
  | .item _ | .exprBlock | .exprUnsafe => label.attrs
  | _ => []

def kindIf (kind : Kind) (found : Bool) : List Kind := if found then [kind] else []

/-- A cast of a literal to a pointer type, with nothing around either. -/
def isLiteralCast : List Node → Bool
  | .node operand _ :: .node ty _ :: _ =>
    match operand.kind, ty.kind with
    | .intLiteral, .typePtr => true
    | _, _ => false
  | _ => false

/-- What the methods of the visitor count at a node itself. -/
def detections : Node → List Kind
  | .node label parts =>
    match label.kind with
    | .item (.externCrateItem ident) => kindIf .allocKind (ident == "alloc")
    | .item (.useItem tree) => kindIf .atomicKind ((collectUsePaths [] tree).any startsWithAtomic)
    | .item (.macroItem path) => kindIf .asmKind (isAsmMacro path)
    | .exprUnsafe => [.unsafeKind]
    | .exprMacro path | .stmtMacro path => kindIf .asmKind (isAsmMacro path)
    | .exprPath path =>
      if pathStartsWith path ["core", "arch", "asm"] then [.asmKind]
      else kindIf .atomicKind (startsWithAtomic path)
    | .typePath path => kindIf .atomicKind (startsWithAtomic path)
    | .exprCast => kindIf .mmioKind (isLiteralCast parts)
    | _ => []

section Visit

variable (demoWaivers : List String)

mutual

def visit (v : ForbiddenVisitor) : Node → ForbiddenVisitor
  | .node label parts =>
    let waived := isWaivedCfg demoWaivers (scopeAttrs label)
    let v := if waived then { v with inWaivedScope := v.inWaivedScope + 1 } else v
    let v := (detections (.node label parts)).foldl ForbiddenVisitor.bump v
    let v := visitAll v parts
    if waived then { v with inWaivedScope := v.inWaivedScope - 1 } else v

def visitAll (v : ForbiddenVisitor) : List Node → ForbiddenVisitor
  | [] => v
  | part :: parts => visitAll (visit v part) parts

end

end Visit

/-! ## The rules -/

structure LintResult where
  rulesPassed : List String := []
  rulesFailed : List (String × String) := []
  waiversLogged : List String := []

def LintResult.pass (r : LintResult) (rule : String) : LintResult :=
  { r with rulesPassed := r.rulesPassed ++ [rule] }

def LintResult.fail (r : LintResult) (rule text : String) : LintResult :=
  { r with rulesFailed := r.rulesFailed ++ [(rule, text)] }

def LintResult.log (r : LintResult) (text : String) : LintResult :=
  { r with waiversLogged := r.waiversLogged ++ [text] }

/-- A rule that passes if nothing was counted outside waived scopes. -/
def countedRule (rule failure waiver : String) (violations waived : ℕ) (r : LintResult) :
    LintResult :=
  if 0 < violations then r.fail rule failure
  else if 0 < waived then (r.log waiver).pass rule
  else r.pass rule

def trustedUnsafe : String := "trusted_unsafe"

def unsafeRule (tier waiverReason : String) (fv : ForbiddenVisitor) (r : LintResult) :
    LintResult :=
  if tier = trustedUnsafe then
    (r.log ("[1] unsafe blocks WAIVED (trust_tier=trusted_unsafe, reason: " ++ waiverReason ++
      ")")).pass "unsafe blocks (waived)"
  else
    let violations := fv.violations .unsafeKind
    let waived := fv.waived .unsafeKind
    countedRule "unsafe blocks" s!"{violations} unsafe block (cfg-gated demo waiver dışı)"
      s!"[1] unsafe blocks: {waived} cfg-gated block waived (demo_feature_waivers)"
      violations waived r

def allocRule (fv : ForbiddenVisitor) : LintResult → LintResult :=
  let violations := fv.violations .allocKind
  let waived := fv.waived .allocKind
  countedRule "extern crate alloc"
    s!"{violations} alloc crate referansı (cfg-gated waiver dışı)"
    s!"[2] extern crate alloc: {waived} cfg-gated waived" violations waived

def asmRule (tier : String) (fv : ForbiddenVisitor) (r : LintResult) : LintResult :=
  if tier = trustedUnsafe then
    (r.log "[3] asm! WAIVED (trusted_unsafe)").pass "core::arch::asm! (waived)"
  else
    let violations := fv.violations .asmKind
    let waived := fv.waived .asmKind
    countedRule "core::arch::asm!"
      s!"{violations} asm macro / core::arch::asm path (cfg-gated waiver dışı)"
      s!"[3] asm!: {waived} cfg-gated waived" violations waived r

def atomicRule (fv : ForbiddenVisitor) : LintResult → LintResult :=
  let violations := fv.violations .atomicKind
  let waived := fv.waived .atomicKind
  countedRule "core::sync::atomic"
    s!"{violations} core::sync::atomic referansı (cfg-gated waiver dışı)"
    s!"[10] core::sync::atomic: {waived} cfg-gated waived" violations waived

def mmioRule (fv : ForbiddenVisitor) : LintResult → LintResult :=
  let violations := fv.violations .mmioKind
  let waived := fv.waived .mmioKind
  countedRule "MMIO direct cast"
    s!"{violations} integer literal → raw pointer cast (cfg-gated waiver dışı)"
    s!"[11] MMIO direct cast: {waived} cfg-gated cast waived" violations waived

/-- Rules 1, 2, 3, 10 and 11 of `lint_task`, those that rest on the visitor. -/
def visitorRules (tier waiverReason : String) (demoWaivers : List String) (file : Node) :
    LintResult :=
  let fv := visit demoWaivers {} file
  mmioRule fv (atomicRule fv (asmRule tier fv (allocRule fv (unsafeRule tier waiverReason fv {}))))

end TaskLintVisitor
