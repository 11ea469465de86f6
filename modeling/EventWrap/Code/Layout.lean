import EventWrap.Code.Tree
import EventWrap.Code.Literal
import EventWrap.Code.Line
import EventWrap.Text.Lines

/-!
# Layout of code

Trees of code become lines: braces stand on lines of their own, what they enclose is one level
deeper, and one empty line separates members. The text is that of the lines.
-/

namespace EventWrap.Code

/-! ## Pieces of a line -/

def modifiersText (modifiers : List Modifier) : String := String.join (modifiers.map fun m => m.keyword ++ " ")

def typeParametersText (names : List String) : String :=
  if names.isEmpty then "" else "<" ++ ", ".intercalate names ++ ">"

def Formal.toText (f : Formal) : String := (if f.isReceiver then "this " else "") ++ f.type ++ " " ++ f.name

def formalsText (formals : List Formal) : String := ", ".intercalate (formals.map (·.toText))

def Constraint.toText (c : Constraint) : String :=
  "where " ++ c.parameter ++ " : " ++ ", ".intercalate c.bounds

/-- The names that a lambda binds; a single one stands without parentheses. -/
def lambdaHead : List String → String
  | [single] => single
  | names => "(" ++ ", ".intercalate names ++ ")"

/-! ## Expressions and statements -/

mutual

/-- An expression on a line at a level. -/
def Expr.layout (level : Nat) : Expr → Fragment
  | .name text => Fragment.ofText text
  | .string value => Fragment.ofText (stringLiteral value)
  | .boolean value => Fragment.ofText (if value then "true" else "false")
  | .member target name => target.layout level ++ Fragment.ofText ("." ++ name)
  | .call target types arguments =>
    target.layout level ++ (Fragment.ofText (typeParametersText types ++ "(") ++
      (Fragment.commaSeparated (layoutAll level arguments) ++ Fragment.ofText ")"))
  | .create type arguments =>
    Fragment.ofText ("new " ++ type ++ "(") ++
      (Fragment.commaSeparated (layoutAll level arguments) ++ Fragment.ofText ")")
  | .lambda parameters body => body.layout level (lambdaHead parameters ++ " =>") " "
  | .tuple items =>
    Fragment.ofText "(" ++ (Fragment.commaSeparated (layoutAll level items) ++ Fragment.ofText ")")
  | .assign target op value =>
    target.layout level ++ (Fragment.ofText (" " ++ op.token ++ " ") ++ value.layout level)
  | .raise exception => Fragment.ofText "throw " ++ exception.layout level

def layoutAll (level : Nat) : List Expr → List Fragment
  | [] => []
  | e :: rest => e.layout level :: layoutAll level rest

/-- A body after its head: an expression goes on after a gap, a block starts on the next line. -/
def Body.layout (level : Nat) (head gap : String) : Body → Fragment
  | .expression e => Fragment.ofText (head ++ gap) ++ e.layout level
  | .block statements =>
    ⟨head, ⟨level, "\x7b"⟩ :: (layoutStatements (level + 1) statements ++ [⟨level, "\x7d"⟩])⟩

def Statement.layout (level : Nat) : Statement → Fragment
  | .expression e => e.layout level ++ Fragment.ofText ";"
  | .result e => Fragment.ofText "return " ++ (e.layout level ++ Fragment.ofText ";")
  | .localFunction returnType name parameters body =>
    let head := returnType ++ " " ++ name ++ "(" ++ formalsText parameters ++ ")"
    match body with
    | .expression e => Fragment.ofText (head ++ " => ") ++ (e.layout level ++ Fragment.ofText ";")
    | .block statements =>
      ⟨head, ⟨level, "\x7b"⟩ :: (layoutStatements (level + 1) statements ++ [⟨level, "\x7d"⟩])⟩

def layoutStatements (level : Nat) : List Statement → List Line
  | [] => []
  | s :: rest => (s.layout level).toLines level ++ layoutStatements level rest

end

/-- Lines in braces at a level. -/
def inBraces (level : Nat) (lines : List Line) : List Line :=
  ⟨level, "\x7b"⟩ :: (lines ++ [⟨level, "\x7d"⟩])

/-! ## Declarations -/

def Doc.layout (level : Nat) (d : Doc) : List Line :=
  ⟨level, "/// <summary>"⟩ :: ((Text.lines d.summary).map fun text => ⟨level, "/// " ++ text⟩) ++
    ⟨level, "/// </summary>"⟩ ::
      d.params.map fun (name, text) => ⟨level, "/// <param name=\"" ++ name ++ "\">" ++ text ++ "</param>"⟩

def docLines (level : Nat) (doc : Option Doc) : List Line :=
  match doc with
  | none => []
  | some d => d.layout level

def AttributeUse.layout (level : Nat) (a : AttributeUse) : Fragment :=
  if a.arguments.isEmpty then Fragment.ofText ("[" ++ a.name ++ "]")
  else Fragment.ofText ("[" ++ a.name ++ "(") ++
    (Fragment.commaSeparated (layoutAll level a.arguments) ++ Fragment.ofText ")]")

def attributeLines (level : Nat) (attributes : List AttributeUse) : List Line :=
  attributes.flatMap fun a => (a.layout level).toLines level

def Field.layout (level : Nat) (f : Field) : List Line :=
  [⟨level, modifiersText f.modifiers ++ f.type ++ " " ++ f.name ++ ";"⟩]

def Constructor.layout (level : Nat) (c : Constructor) : List Line :=
  let head := modifiersText c.modifiers ++ c.name ++ "(" ++ formalsText c.parameters ++ ")"
  let header := match c.baseArguments with
    | none => Fragment.ofText head
    | some arguments => Fragment.ofText (head ++ " : base(") ++
      (Fragment.commaSeparated (layoutAll level arguments) ++ Fragment.ofText ")")
  docLines level c.doc ++ header.toLines level ++ inBraces level (layoutStatements (level + 1) c.body)

def Property.layout (level : Nat) (p : Property) : List Line :=
  let head := modifiersText p.modifiers ++ p.type ++ " " ++ p.name
  let text := match p.getter with
    | .expression e => Fragment.ofText (head ++ " => ") ++ (e.layout level ++ Fragment.ofText ";")
    | .automatic => Fragment.ofText (head ++ " \x7b get; \x7d")
  docLines level p.doc ++ attributeLines level p.attributes ++ text.toLines level

def Method.layout (level : Nat) (m : Method) : List Line :=
  let head := modifiersText m.modifiers ++ m.returnType ++ " " ++ m.name ++
    typeParametersText m.typeParameters ++ "(" ++ formalsText m.parameters ++ ")" ++
    String.join (m.constraints.map fun c => " " ++ c.toText)
  let text := match m.body with
    | .expression e =>
      (Fragment.ofText (head ++ " => ") ++ (e.layout level ++ Fragment.ofText ";")).toLines level
    | .block statements => ⟨level, head⟩ :: inBraces level (layoutStatements (level + 1) statements)
  docLines level m.doc ++ attributeLines level m.attributes ++ text

def Member.layout (level : Nat) : Member → List Line
  | .field f => f.layout level
  | .constructor c => c.layout level
  | .property p => p.layout level
  | .method m => m.layout level

/-- Groups of lines with one empty line between any two. -/
def spaced : List (List Line) → List Line
  | [] => []
  | [lines] => lines
  | lines :: rest => lines ++ Line.empty :: spaced rest

def ClassBlock.layout (level : Nat) (c : ClassBlock) : List Line :=
  let header := modifiersText c.modifiers ++ "class " ++ c.name ++ typeParametersText c.typeParameters ++
    (match c.base with | none => "" | some base => " : " ++ base)
  docLines level c.doc ++ attributeLines level c.attributes ++ ⟨level, header⟩ ::
    (c.constraints.map fun k => ⟨level + 1, k.toText⟩) ++
    inBraces level (spaced (c.members.map (·.layout (level + 1))))

def NamespaceBlock.layout (n : NamespaceBlock) : List Line :=
  ⟨0, "namespace " ++ n.name⟩ :: inBraces 0 (spaced (n.classes.map (·.layout 1)))

/-- The comments and the directive at the head of a unit. -/
def SourceUnit.preamble (u : SourceUnit) : List Line :=
  (u.comments.map fun text => ⟨0, "// " ++ text⟩) ++ if u.nullable then [⟨0, "#nullable enable"⟩] else []

def SourceUnit.layout (u : SourceUnit) : List Line :=
  let preamble := if u.preamble.isEmpty then [] else [u.preamble]
  spaced (preamble ++ u.namespaces.map (·.layout) ++ u.globals.map (·.layout 0))

def SourceUnit.render (u : SourceUnit) : String := Line.textOf u.layout

def ClassBlock.render (c : ClassBlock) : String := Line.textOf (c.layout 0)

def Expr.render (e : Expr) : String := (e.layout 0).toText

end EventWrap.Code
