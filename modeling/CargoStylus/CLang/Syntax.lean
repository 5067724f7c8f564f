import CargoStylus.Rust.Text

/-!
# A fragment of C, as text

Enough of C for a program that generates it : the directives of the preprocessor, prototypes
with comments, and functions that branch on numbers and end in calls. A file is a list of
items, and `Item.text` is what is written for each of them.
-/

namespace CLang

open Rust (Text join showNat)

/-! ## Declarations -/

/-- A type, or a pointer to it. -/
structure Ty where
  isConst : Bool
  name : Text
  isPointer : Bool
deriving DecidableEq

/-- A parameter or a local variable. -/
structure Param where
  ty : Ty
  name : Text
deriving DecidableEq

/-- A list in parentheses. -/
def parenthesized (parts : List Text) : Text :=
  '(' :: join [',', ' '] parts ++ [')']

/-- How a parameter is written. -/
def Param.text (p : Param) : Text :=
  (if p.ty.isConst then ['c', 'o', 'n', 's', 't', ' '] else []) ++ p.ty.name ++ [' '] ++
    (if p.ty.isPointer then ['*'] else []) ++ p.name

/-- What a declaration says of a function. -/
structure Prototype where
  result : Text
  name : Text
  params : List Param
deriving DecidableEq

/-- How a declaration is written, without the semicolon. -/
def Prototype.text (p : Prototype) : Text :=
  p.result ++ [' '] ++ p.name ++ parenthesized (p.params.map Param.text)

/-! ## Expressions and statements -/

/-- An argument, or one side of a comparison. -/
inductive Atom where
  | name (n : Text)
  | number (n : ℕ)
deriving DecidableEq

/-- How an argument is written. -/
def Atom.text : Atom → Text
  | name n => n
  | number n => showNat n

/-- A call. -/
structure Call where
  function : Text
  args : List Atom
deriving DecidableEq

/-- How a call is written. -/
def Call.text (c : Call) : Text :=
  c.function ++ parenthesized (c.args.map Atom.text)

/-- A condition. -/
inductive Cond where
  | less (l r : Atom)
  | equal (l r : Atom)
  | not (c : Call)
deriving DecidableEq

/-- How a condition is written. -/
def Cond.text : Cond → Text
  | less l r => l.text ++ [' ', '<', ' '] ++ r.text
  | equal l r => l.text ++ ['=', '='] ++ r.text
  | not c => ['!'] ++ c.text

/-- A statement on one line that declares nothing. -/
inductive Simple where
  | call (c : Call)
  | ret (c : Call)
  | guarded (cond : Cond) (c : Call)
deriving DecidableEq

/-- How a statement is written, without its indentation. -/
def Simple.text : Simple → Text
  | call c => c.text ++ [';']
  | ret c => ['r', 'e', 't', 'u', 'r', 'n', ' '] ++ c.text ++ [';']
  | guarded cond c => ['i', 'f', ' ', '('] ++ cond.text ++ [')', ' '] ++ c.text ++ [';']

/-- A statement in the body of a function. -/
inductive Stmt where
  | declare (p : Param)
  | init (p : Param) (c : Call)
  | add (name : Text) (n : ℕ)
  | sub (name : Text) (n : ℕ)
  | simple (s : Simple)
  | block (cond : Cond) (body : List Simple)
  | blank
deriving DecidableEq

/-- What a level of a function is indented by. -/
def indent : Text :=
  [' ', ' ', ' ', ' ']

/-- The lines of a statement. -/
def Stmt.text : Stmt → Text
  | declare p => indent ++ p.text ++ [';', '\n']
  | init p c => indent ++ p.text ++ [' ', '=', ' '] ++ c.text ++ [';', '\n']
  | add name n => indent ++ name ++ [' ', '+', '='] ++ showNat n ++ [';', '\n']
  | sub name n => indent ++ name ++ [' ', '-', '='] ++ showNat n ++ [';', '\n']
  | simple s => indent ++ s.text ++ ['\n']
  | block cond body => indent ++ ['i', 'f', ' ', '('] ++ cond.text ++ [')', ' ', '{', '\n'] ++
      body.flatMap (fun s => indent ++ indent ++ s.text ++ ['\n']) ++ indent ++ ['}', '\n']
  | blank => ['\n']

/-! ## Files -/

/-- A line of a file, or a function. What stands behind `#ifndef` and `#define` is kept as
text, since the preprocessor reads a name from it. -/
inductive Item where
  | blank
  | comment (text : Text)
  | ifndef (body : Text)
  | ifdef (body : Text)
  | endif (comment : Option Text)
  | define (body : Text) (comment : Option Text)
  /-- The file, with its quotes or brackets. -/
  | inclusion (file : Text)
  /-- What only a compiler of C++ is to see. -/
  | linkage (text : Text)
  | prototype (p : Prototype) (comment : Option Text)
  | function (p : Prototype) (body : List Stmt)
  /-- A macro with an argument. -/
  | invoke (name argument : Text)
deriving DecidableEq

/-- The end of a line, with a comment if there is one. -/
def lineEnd : Option Text → Text
  | some comment => [' ', '/', '/', ' '] ++ comment ++ ['\n']
  | none => ['\n']

/-- The lines of an item. -/
def Item.text : Item → Text
  | blank => ['\n']
  | comment t => [' ', '/', '/', ' '] ++ t ++ ['\n']
  | ifndef body => ['#', 'i', 'f', 'n', 'd', 'e', 'f', ' '] ++ body ++ ['\n']
  | ifdef body => ['#', 'i', 'f', 'd', 'e', 'f', ' '] ++ body ++ ['\n']
  | endif c => ['#', 'e', 'n', 'd', 'i', 'f'] ++ lineEnd c
  | define body c => ['#', 'd', 'e', 'f', 'i', 'n', 'e', ' '] ++ body ++ lineEnd c
  | inclusion file => ['#', 'i', 'n', 'c', 'l', 'u', 'd', 'e', ' '] ++ file ++ ['\n']
  | linkage t => t ++ ['\n']
  | prototype p c => p.text ++ [';'] ++ lineEnd c
  | function p body => p.text ++ [' ', '{', '\n'] ++ body.flatMap Stmt.text ++ ['}', '\n']
  | invoke name argument => name ++ ['('] ++ argument ++ [')', '\n']

namespace Item

theorem text_ifndef (body : Text) :
    (ifndef body).text = ['#', 'i', 'f', 'n', 'd', 'e', 'f', ' '] ++ body ++ ['\n'] :=
  rfl

theorem text_endif (c : Option Text) :
    (endif c).text = ['#', 'e', 'n', 'd', 'i', 'f'] ++ lineEnd c :=
  rfl

theorem text_define (body : Text) (c : Option Text) :
    (define body c).text = ['#', 'd', 'e', 'f', 'i', 'n', 'e', ' '] ++ body ++ lineEnd c :=
  rfl

theorem text_inclusion (file : Text) :
    (inclusion file).text = ['#', 'i', 'n', 'c', 'l', 'u', 'd', 'e', ' '] ++ file ++ ['\n'] :=
  rfl

theorem text_prototype (p : Prototype) (c : Option Text) :
    (prototype p c).text = p.text ++ [';'] ++ lineEnd c :=
  rfl

theorem text_function (p : Prototype) (body : List Stmt) : (function p body).text =
    p.text ++ [' ', '{', '\n'] ++ body.flatMap Stmt.text ++ ['}', '\n'] :=
  rfl

theorem text_invoke (name argument : Text) :
    (invoke name argument).text = name ++ ['('] ++ argument ++ [')', '\n'] :=
  rfl

end Item

/-- The text of a file. -/
def fileText (items : List Item) : Text :=
  items.flatMap Item.text

@[simp] theorem fileText_append (items items' : List Item) :
    fileText (items ++ items') = fileText items ++ fileText items' :=
  List.flatMap_append

@[simp] theorem fileText_cons (item : Item) (items : List Item) :
    fileText (item :: items) = item.text ++ fileText items :=
  List.flatMap_cons

@[simp] theorem fileText_nil : fileText [] = [] :=
  rfl

/-! ## Names in an item -/

/-- The functions that are called. -/
def Simple.calls : Simple → List Call
  | call c => [c]
  | ret c => [c]
  | guarded (.not c) c' => [c, c']
  | guarded _ c => [c]

/-- The functions that a statement calls. -/
def Stmt.calls : Stmt → List Call
  | init _ c => [c]
  | simple s => s.calls
  | block (.not c) body => c :: body.flatMap Simple.calls
  | block _ body => body.flatMap Simple.calls
  | _ => []

/-- The local variables that are declared. -/
def Stmt.locals : Stmt → List Param
  | declare p => [p]
  | init p _ => [p]
  | _ => []

/-- The names of a parameter and its type. -/
def Param.names (p : Param) : List Text :=
  [p.ty.name, p.name]

/-- The names in a declaration. -/
def Prototype.names (p : Prototype) : List Text :=
  p.result :: p.name :: p.params.flatMap Param.names

/-- The variable that is assigned to. -/
def Stmt.assigned : Stmt → List Text
  | add name _ => [name]
  | sub name _ => [name]
  | _ => []

/-- The names in a statement other than those that are arguments or compared. -/
def Stmt.names (s : Stmt) : List Text :=
  s.locals.flatMap Param.names ++ s.assigned ++ s.calls.map Call.function

namespace Item

/-- The names in an item other than those that are arguments of calls or compared. -/
def names : Item → List Text
  | prototype p _ => p.names
  | function p body => p.names ++ body.flatMap Stmt.names
  | invoke name argument => [name, argument]
  | _ => []

/-- The function that is declared. -/
def declared : Item → Option Prototype
  | prototype p _ => some p
  | function p _ => some p
  | _ => none

/-- The function that is defined. -/
def defined : Item → Option (Prototype × List Stmt)
  | function p body => some (p, body)
  | _ => none

end Item

end CLang
