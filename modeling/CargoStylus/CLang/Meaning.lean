import CargoStylus.CLang.Syntax
import CargoStylus.Rust.Bytes
import Mathlib.Data.Bool.AllAny

/-!
# What a file means

The preprocessor goes through the items with the macros that are defined, of which the last
definition counts, and leaves out what conditionals exclude (`preprocess`). The rest compiles
if no name is a macro, declarations of one function agree, and calls are of functions that take
their arguments (`Compiles`). A function is executed up to the call whose result it returns,
or a call that does not return (`exec`).

What the included files define is a parameter : names, which are not told apart, constants,
and functions with what their calls do.
-/

namespace CLang

open Rust (Text Bytes join showNat hexDecode ofBe)

/-! ## Names and lines -/

/-- The characters of C identifiers. A compiler may allow `$` and others that are not ASCII. -/
structure CIdentifier where
  isIdent : Char → Bool
  ascii : ∀ c, c.toNat < 128 → c ≠ '$' → isIdent c = (c.isAlphanum || c = '_')

/-- The words that are no identifiers. -/
def keywords : List String :=
  ["auto", "break", "case", "char", "const", "continue", "default", "do", "double", "else",
    "enum", "extern", "float", "for", "goto", "if", "inline", "int", "long", "register",
    "restrict", "return", "short", "signed", "sizeof", "static", "struct", "switch", "typedef",
    "union", "unsigned", "void", "volatile", "while", "_Alignas", "_Alignof", "_Atomic", "_Bool",
    "_Complex", "_Generic", "_Imaginary", "_Noreturn", "_Static_assert", "_Thread_local"]

/-- A name that may be declared. -/
structure IsName (ident : CIdentifier) (name : Text) : Prop where
  start : ∃ c ∈ name.head?, ¬c.isDigit
  chars : ∀ c ∈ name, ident.isIdent c = true
  notKeyword : name ∉ keywords.map String.toList

/-- The text does not end its line, and does not go on in the next one. -/
structure OneLine (text : Text) : Prop where
  noLineFeed : '\n' ∉ text
  noReturn : '\r' ∉ text
  noSplice : text.getLast? ≠ some '\\'

/-- A line that no comment reaches over. -/
structure Unbroken (text : Text) : Prop extends OneLine text where
  noComment : ¬['/', '*'] <:+: text

/-- The lines of an item are those it is written on. -/
def Item.Legible : Item → Prop
  | comment t => OneLine t
  | ifndef body => Unbroken body
  | ifdef body => Unbroken body
  | endif c => ∀ t ∈ c, OneLine t
  | define body c => Unbroken body ∧ ∀ t ∈ c, OneLine t
  | inclusion file => Unbroken file
  | prototype _ c => ∀ t ∈ c, OneLine t
  | _ => True

theorem CIdentifier.isIdent_newline (ident : CIdentifier) : ident.isIdent '\n' = false :=
  ident.ascii '\n' (by decide) (by decide)

theorem CIdentifier.isIdent_underscore (ident : CIdentifier) : ident.isIdent '_' = true :=
  ident.ascii '_' (by decide) (by decide)

/-- All compilers read these characters as part of an identifier. -/
def isWordChar (c : Char) : Bool :=
  c.toNat < 128 && c ≠ '$' && (c.isAlphanum || c = '_')

theorem CIdentifier.isIdent_of_isWordChar (ident : CIdentifier) {c : Char} (h : isWordChar c) :
    ident.isIdent c = true := by
  simp only [isWordChar, Bool.and_eq_true, decide_eq_true_eq] at h
  rw [ident.ascii c h.1.1 h.1.2, h.2]

theorem CIdentifier.isIdent_of_mem (ident : CIdentifier) {t : Text} (h : t.all isWordChar)
    {c : Char} (hc : c ∈ t) : ident.isIdent c = true :=
  ident.isIdent_of_isWordChar (List.all_eq_true.1 h c hc)

/-- A name with an ending that no keyword has is a name. -/
theorem IsName.append {ident : CIdentifier} {name ending : Text} (h : IsName ident name)
    (hchars : ∀ c ∈ ending, ident.isIdent c = true)
    (hkeyword : ∀ k ∈ keywords, ¬ending <:+ k.toList) : IsName ident (name ++ ending) where
  start := by
    obtain ⟨c, hc, hdigit⟩ := h.start
    exact ⟨c, List.mem_head?_append_of_mem_head? hc, hdigit⟩
  chars c hc := (List.mem_append.1 hc).elim (h.chars c) (hchars c)
  notKeyword hmem := by
    obtain ⟨k, hk, heq⟩ := List.mem_map.1 hmem
    exact hkeyword k hk ⟨name, heq.symm⟩

/-- Characters that may end a line or begin a comment. -/
def lineBreakers : List Char :=
  ['\n', '\r', '\\', '/']

theorem CIdentifier.not_mem_lineBreakers {ident : CIdentifier} {c : Char}
    (h : ident.isIdent c = true) : c ∉ lineBreakers := by
  have hnone : ∀ d ∈ lineBreakers, d.toNat < 128 ∧ d ≠ '$' ∧
      (d.isAlphanum || d = '_') = false :=
    List.all_iff_forall_prop.1 (by decide)
  intro hmem
  obtain ⟨hascii, hdollar, hnot⟩ := hnone c hmem
  rw [ident.ascii c hascii hdollar, hnot] at h
  cases h

theorem unbroken_of_forall {t : Text} (h : ∀ c ∈ t, c ∉ lineBreakers) : Unbroken t where
  noLineFeed hmem := h _ hmem (by decide)
  noReturn hmem := h _ hmem (by decide)
  noSplice hlast := h _ (List.mem_of_getLast? hlast) (by decide)
  noComment hcomment := h '/' (hcomment.subset List.mem_cons_self) (by decide)

/-! ## The preprocessor -/

/-- The macros that are defined, the last one first. -/
abbrev Macros := List (Text × Text)

/-- An item that is compiled, and the macros that are defined there. -/
structure Line where
  macros : Macros
  item : Item
deriving DecidableEq

variable (ident : CIdentifier) (names : List Text)

/-- The identifier a directive is about. -/
def directiveIdent (body : Text) : Text :=
  body.takeWhile ident.isIdent

/-- The macro that an item defines. -/
def Item.definedMacro : Item → Option (Text × Text)
  | define body _ => some (directiveIdent ident body, body.dropWhile ident.isIdent)
  | _ => none

/-- Whether `#ifdef` finds the name, which may be one of `names`. -/
def isDefined (macros : Macros) (body : Text) : Bool :=
  (macros.map Prod.fst ++ names).contains (directiveIdent ident body)

/-- The items that are compiled. There are `skipped` open conditionals that exclude what
follows. -/
def preprocess (macros : Macros) : ℕ → List Item → List Line
  | _, [] => []
  | 0, .ifndef body :: items =>
    preprocess macros (if isDefined ident names macros body then 1 else 0) items
  | 0, .ifdef body :: items =>
    preprocess macros (if isDefined ident names macros body then 0 else 1) items
  | 0, .endif _ :: items => preprocess macros 0 items
  | 0, .define body _ :: items =>
    preprocess ((directiveIdent ident body, body.dropWhile ident.isIdent) :: macros) 0 items
  | 0, item :: items => ⟨macros, item⟩ :: preprocess macros 0 items
  | skipped + 1, .ifndef _ :: items => preprocess macros (skipped + 2) items
  | skipped + 1, .ifdef _ :: items => preprocess macros (skipped + 2) items
  | skipped + 1, .endif _ :: items => preprocess macros skipped items
  | skipped + 1, _ :: items => preprocess macros (skipped + 1) items

/-- The items of `file` with those of `header` in place of its inclusion. -/
def includeHeader (name : Text) (header file : List Item) : List Item :=
  file.flatMap fun item => if item = .inclusion name then header else [item]

/-- A file that includes the header once. -/
theorem includeHeader_once {name : Text} {header before after : List Item}
    (hbefore : ∀ item ∈ before, item ≠ .inclusion name)
    (hafter : ∀ item ∈ after, item ≠ .inclusion name) :
    includeHeader name header (before ++ .inclusion name :: after) = before ++ header ++ after := by
  have hnone : ∀ {file : List Item}, (∀ item ∈ file, item ≠ .inclusion name) →
      includeHeader name header file = file := by
    intro file hfile
    unfold includeHeader
    rw [List.flatMap_congr fun item hitem => if_neg (hfile item hitem)]
    exact List.flatMap_singleton' file
  have happend : includeHeader name header (before ++ .inclusion name :: after) =
      includeHeader name header before ++ (header ++ includeHeader name header after) := by
    unfold includeHeader
    rw [List.flatMap_append, List.flatMap_cons, if_pos rfl]
  rw [happend, hnone hbefore, hnone hafter, List.append_assoc]

/-! ## Items without conditionals -/

/-- The item is compiled, and not only read by the preprocessor. -/
def Item.isCode : Item → Bool
  | linkage _ => true
  | prototype _ _ => true
  | function _ _ => true
  | invoke _ _ => true
  | _ => false

theorem Item.names_of_not_isCode {item : Item} (h : item.isCode = false) : item.names = [] := by
  cases item with
  | linkage t => cases h
  | prototype p c => cases h
  | function p body => cases h
  | invoke name argument => cases h
  | _ => rfl

/-- The item is no conditional. -/
def Item.isPlain : Item → Bool
  | ifndef _ => false
  | ifdef _ => false
  | endif _ => false
  | _ => true

/-- The macros behind the items. -/
def macrosAfter (macros : Macros) (items : List Item) : Macros :=
  (items.filterMap (Item.definedMacro ident)).reverse ++ macros

variable {ident} {names} {macros : Macros} {items : List Item}

theorem macrosAfter_cons (item : Item) : macrosAfter ident macros (item :: items) =
    macrosAfter ident ((item.definedMacro ident).toList ++ macros) items := by
  unfold macrosAfter
  rw [List.filterMap_cons]
  cases item.definedMacro ident with
  | none => rfl
  | some d =>
    dsimp only
    rw [List.reverse_cons, List.append_assoc]
    rfl

theorem macrosAfter_append (items items' : List Item) :
    macrosAfter ident macros (items ++ items') =
      macrosAfter ident (macrosAfter ident macros items) items' := by
  unfold macrosAfter
  rw [List.filterMap_append, List.reverse_append, List.append_assoc]

/-- A plain item is compiled, or defines a macro. -/
theorem preprocess_cons {item : Item} (h : item.isPlain) (items : List Item) :
    preprocess ident names macros 0 (item :: items) =
      (if (item.definedMacro ident).isNone then [⟨macros, item⟩] else []) ++
        preprocess ident names ((item.definedMacro ident).toList ++ macros) 0 items := by
  cases item with
  | ifndef body => cases h
  | ifdef body => cases h
  | endif c => cases h
  | define body c => rfl
  | _ => rfl

theorem preprocess_append (h : ∀ item ∈ items, item.isPlain) (rest : List Item) :
    preprocess ident names macros 0 (items ++ rest) = preprocess ident names macros 0 items ++
      preprocess ident names (macrosAfter ident macros items) 0 rest := by
  induction items generalizing macros with
  | nil => rfl
  | cons item items ih =>
    obtain ⟨hitem, hitems⟩ := List.forall_mem_cons.1 h
    rw [List.cons_append, preprocess_cons hitem, preprocess_cons hitem, ih hitems,
      macrosAfter_cons, List.append_assoc]

theorem preprocess_append_congr (h : ∀ item ∈ items, item.isPlain) {rest rest' : List Item}
    (hrest : preprocess ident names (macrosAfter ident macros items) 0 rest =
      preprocess ident names (macrosAfter ident macros items) 0 rest') :
    preprocess ident names macros 0 (items ++ rest) =
      preprocess ident names macros 0 (items ++ rest') := by
  rw [preprocess_append h, preprocess_append h, hrest]

/-- Plain items are skipped where they are excluded. -/
theorem preprocess_skip (h : ∀ item ∈ items, item.isPlain) (skipped : ℕ) (rest : List Item) :
    preprocess ident names macros (skipped + 1) (items ++ rest) =
      preprocess ident names macros (skipped + 1) rest := by
  induction items with
  | nil => rfl
  | cons item items ih =>
    obtain ⟨hitem, hitems⟩ := List.forall_mem_cons.1 h
    rw [List.cons_append, ← ih hitems]
    cases item with
    | ifndef body => cases hitem
    | ifdef body => cases hitem
    | endif c => cases hitem
    | _ => rfl

theorem isDefined_iff {body : Text} : isDefined ident names macros body = true ↔
    directiveIdent ident body ∈ macros.map Prod.fst ++ names :=
  List.contains_iff_mem

/-- What a conditional on a name that is not defined excludes. -/
theorem preprocess_ifdef {body : Text} {c : Option Text} {item : Item} (hitem : item.isPlain)
    (h : directiveIdent ident body ∉ macros.map Prod.fst ++ names) :
    preprocess ident names macros 0 (.ifdef body :: item :: .endif c :: items) =
      preprocess ident names macros 0 items := by
  rw [preprocess, if_neg fun hdefined => h (isDefined_iff.1 hdefined)]
  cases item with
  | ifndef body => cases hitem
  | ifdef body => cases hitem
  | endif c => cases hitem
  | _ => rfl

theorem macros_subset_macrosAfter (macros : Macros) (items : List Item) :
    macros ⊆ macrosAfter ident macros items :=
  List.subset_append_right _ _

/-- The items that are compiled are among those of the file, and see no more macros than there
are at the end. -/
theorem mem_preprocess (h : ∀ item ∈ items, item.isPlain) {line : Line}
    (hline : line ∈ preprocess ident names macros 0 items) :
    line.item ∈ items ∧ line.macros ⊆ macrosAfter ident macros items := by
  induction items generalizing macros with
  | nil => cases hline
  | cons item items ih =>
    obtain ⟨hitem, hitems⟩ := List.forall_mem_cons.1 h
    rw [preprocess_cons hitem, List.mem_append] at hline
    rw [macrosAfter_cons]
    rcases hline with hline | hline
    · split_ifs at hline with hnone
      · obtain rfl := List.mem_singleton.1 hline
        refine ⟨List.mem_cons_self, ?_⟩
        rw [Option.isNone_iff_eq_none.1 hnone]
        exact macros_subset_macrosAfter _ _
      · cases hline
    · obtain ⟨hmem, hsubset⟩ := ih hitems hline
      exact ⟨List.mem_cons_of_mem _ hmem, hsubset⟩

/-- What is read of each item that defines no macro is read of the items of a file. -/
theorem filterMap_preprocess {β : Type} {read : Item → Option β}
    (hread : ∀ body c, read (.define body c) = none) (h : ∀ item ∈ items, item.isPlain) :
    (preprocess ident names macros 0 items).filterMap (fun line => read line.item) =
      items.filterMap read := by
  induction items generalizing macros with
  | nil => rfl
  | cons item items ih =>
    obtain ⟨hitem, hitems⟩ := List.forall_mem_cons.1 h
    rw [preprocess_cons hitem, List.filterMap_append, ih hitems,
      ← List.singleton_append (x := item), List.filterMap_append]
    congr 1
    cases item with
    | define body c =>
      have hnone : [Item.define body c].filterMap read = [] := by
        rw [List.filterMap_cons, hread]
        rfl
      rw [hnone]
      rfl
    | _ => rfl

variable (ident) (names)

/-! ## Compiling -/

/-- The declarations of functions. -/
def declarations (lines : List Line) : List Prototype :=
  lines.filterMap fun line => line.item.declared

/-- The functions with a body. -/
def definitions (lines : List Line) : List (Prototype × List Stmt) :=
  lines.filterMap fun line => line.item.defined

/-- The two have the same result and take the same arguments. -/
def Prototype.Agrees (p q : Prototype) : Prop :=
  p.result = q.result ∧ p.params.map Param.ty = q.params.map Param.ty

/-- The parameters and local variables of a function. -/
def scope (p : Prototype) (body : List Stmt) : List Param :=
  p.params ++ body.flatMap Stmt.locals

/-- The argument can be passed for a parameter of the type. The constants `nulls` are null
pointers. -/
inductive Atom.Fits (nulls : List Text) (params : List Param) : Atom → Ty → Prop
  | null {n : Text} {ty : Ty} : n ∈ nulls → ty.isPointer = true → Fits nulls params (.name n) ty
  | variable {n : Text} {ty : Ty} : ⟨ty, n⟩ ∈ params → Fits nulls params (.name n) ty

/-- No name is a macro, functions are declared under names that are free, the declarations of
one function agree, and each call is of an included function, or of one that is declared and
takes the arguments. -/
structure Compiles (nulls : List Text) (lines : List Line) : Prop where
  noMacro : ∀ line ∈ lines, ∀ n ∈ line.item.names, n ∉ line.macros.map Prod.fst
  noLinkage : ∀ line ∈ lines, ∀ t, line.item ≠ .linkage t
  free : ∀ p ∈ declarations lines, IsName ident p.name ∧ p.name ∉ names
  agree : ∀ p ∈ declarations lines, ∀ q ∈ declarations lines, p.name = q.name → p.Agrees q
  calls : ∀ f ∈ definitions lines, ∀ call ∈ f.2.flatMap Stmt.calls,
    call.function ∉ (scope f.1 f.2).map Param.name ∧
      (call.function ∈ names ∨ ∃ p ∈ declarations lines, p.name = call.function ∧
        List.Forall₂ (Atom.Fits nulls (scope f.1 f.2)) call.args (p.params.map Param.ty))

/-! ## Running -/

/-- The value of a variable. Numbers are those of all integer types, and pointers are to the
bytes of a buffer. -/
inductive Value (α : Type) where
  | unset
  | null
  | pointer (buffer : Bytes) (offset : ℕ)
  | number (n : ℕ)
  | data (a : α)
deriving DecidableEq

/-- What a call of an included function does. -/
inductive Effect (α : Type) where
  | value (v : Value α)
  /-- It sets the variable that it is called with. -/
  | sets (v : Value α)
  /-- It does not return. -/
  | stops
deriving DecidableEq

/-- Constants and functions of the included files. -/
structure Library (α : Type) where
  constant : Text → Option (Value α)
  call : Text → List (Value α) → Option (Effect α)

/-- How a function ends : with the result of a call, or in one that does not return. -/
inductive Ended (α : Type) where
  | returned (function : Text) (args : List (Value α))
  | stopped (function : Text)
deriving DecidableEq

/-- The variables, the last value first. -/
abbrev Env (α : Type) := List (Text × Value α)

variable {α : Type} (lib : Library α) (macros : Macros)

/-- A number in hex, behind a blank. -/
def readHexNumber : Text → Option ℕ
  | ' ' :: '0' :: 'x' :: digits => (hexDecode digits).map ofBe
  | _ => none

/-- The value of an argument. Macros stand for numbers. -/
def Atom.eval (env : Env α) : Atom → Option (Value α)
  | number n => some (.number n)
  | name n =>
    match macros.lookup n with
    | some text => (readHexNumber text).map .number
    | none => (env.lookup n).or (lib.constant n)

/-- The values of some arguments, if all have one. -/
def evalArgs (env : Env α) : List Atom → Option (List (Value α))
  | [] => some []
  | a :: as => do
    let v ← a.eval lib macros env
    let vs ← evalArgs env as
    return v :: vs

/-- What the call of an included function does. -/
def Call.effect (env : Env α) (c : Call) : Option (Effect α) := do
  lib.call c.function (← evalArgs lib macros env c.args)

/-- Whether a condition holds : numbers are compared, and a call is taken as a number. -/
def Cond.eval (env : Env α) : Cond → Option Bool
  | less l r => do
    match ← l.eval lib macros env, ← r.eval lib macros env with
    | .number m, .number n => some (decide (m < n))
    | _, _ => none
  | equal l r => do
    match ← l.eval lib macros env, ← r.eval lib macros env with
    | .number m, .number n => some (decide (m = n))
    | _, _ => none
  | not c => do
    match ← c.effect lib macros env with
    | .value (.number n) => some (decide (n = 0))
    | _ => none

/-- How a statement is left : the next one follows, or the function ends. -/
inductive Outcome (α : Type) where
  | next (env : Env α)
  | ended (e : Ended α)

/-- A call as a statement. -/
def Call.exec (env : Env α) (c : Call) : Option (Outcome α) := do
  match ← c.effect lib macros env, c.args with
  | .value _, _ => some (.next env)
  | .sets v, .name n :: _ => some (.next ((n, v) :: env))
  | .stops, _ => some (.ended (.stopped c.function))
  | _, _ => none

/-- A statement that declares nothing. -/
def Simple.exec (env : Env α) : Simple → Option (Outcome α)
  | call c => c.exec lib macros env
  | ret c => do return .ended (.returned c.function (← evalArgs lib macros env c.args))
  | guarded cond c => do
    if ← cond.eval lib macros env then c.exec lib macros env else some (.next env)

/-- The statements of a block, in order. -/
def execBlock (env : Env α) : List Simple → Option (Outcome α)
  | [] => some (.next env)
  | s :: body => do
    match ← s.exec lib macros env with
    | .next env => execBlock env body
    | .ended e => some (.ended e)

/-- A number added to a number or a pointer. -/
def Value.add (n : ℕ) : Value α → Option (Value α)
  | pointer buffer offset => some (.pointer buffer (offset + n))
  | number m => some (.number (m + n))
  | _ => none

/-- A number subtracted from one that is not smaller, or from a pointer as far as its buffer
goes. -/
def Value.sub (n : ℕ) : Value α → Option (Value α)
  | pointer buffer offset => if n ≤ offset then some (.pointer buffer (offset - n)) else none
  | number m => if n ≤ m then some (.number (m - n)) else none
  | _ => none

/-- The variable is changed by `f`. -/
def assign (env : Env α) (name : Text) (f : Value α → Option (Value α)) :
    Option (Outcome α) := do
  return .next ((name, ← f (← env.lookup name)) :: env)

/-- A statement of a function's body. -/
def Stmt.exec (env : Env α) : Stmt → Option (Outcome α)
  | declare p => some (.next ((p.name, .unset) :: env))
  | init p c => do
    match ← c.effect lib macros env with
    | .value v => some (.next ((p.name, v) :: env))
    | _ => none
  | add name n => assign env name (Value.add n)
  | sub name n => assign env name (Value.sub n)
  | simple s => s.exec lib macros env
  | block cond body => do
    if ← cond.eval lib macros env then execBlock lib macros env body else some (.next env)
  | blank => some (.next env)

/-- Execute the body of a function, which has to end in a call. -/
def exec (env : Env α) : List Stmt → Option (Ended α)
  | [] => none
  | s :: body => do
    match ← s.exec lib macros env with
    | .next env => exec env body
    | .ended e => some e

/-- The body of a function, with the macros that are defined there. -/
def findDefinition (name : Text) (lines : List Line) :
    Option (Macros × Prototype × List Stmt) :=
  lines.findSome? fun line =>
    line.item.defined.bind fun f => if f.1.name = name then some (line.macros, f) else none

/-- The function that is handed to the macro `invoked`. -/
def findInvoked (invoked : Text) (lines : List Line) : Option Text :=
  lines.findSome? fun line =>
    match line.item with
    | .invoke name argument => if name = invoked then some argument else none
    | _ => none

/-- Call the function that is handed to the macro `invoked`. -/
def run (invoked : Text) (lines : List Line) (args : List (Value α)) : Option (Ended α) := do
  let (macros, p, body) ← findDefinition (← findInvoked invoked lines) lines
  exec lib macros ((p.params.map Param.name).zip args) body

/-! ## Evaluation -/

variable {lib} {macros} {env : Env α}

theorem lookup_eq_none_of_not_mem {n : Text} (h : n ∉ macros.map Prod.fst) :
    macros.lookup n = none := by
  rw [List.lookup_eq_none_iff]
  intro d hd
  exact bne_iff_ne.2 fun heq => h (heq ▸ List.mem_map_of_mem hd)

/-- The definition of a macro counts if there is no other. -/
theorem lookup_of_unique {n text : Text} (hmem : (n, text) ∈ macros)
    (hunique : ∀ d ∈ macros, d.1 = n → d.2 = text) : macros.lookup n = some text := by
  cases hlookup : macros.lookup n with
  | none =>
    rw [List.lookup_eq_none_iff] at hlookup
    exact absurd rfl (bne_iff_ne.1 (hlookup _ hmem))
  | some text' =>
    obtain ⟨before, after, heq, -⟩ := List.lookup_eq_some_iff.1 hlookup
    have hmem' : (n, text') ∈ macros := heq ▸ List.mem_append_right _ List.mem_cons_self
    exact congrArg some (hunique _ hmem' rfl)

theorem eval_name {n : Text} (h : n ∉ macros.map Prod.fst) :
    (Atom.name n).eval lib macros env = (env.lookup n).or (lib.constant n) := by
  rw [Atom.eval, lookup_eq_none_of_not_mem h]

theorem evalArgs_map {β : Type} {toAtom : β → Atom} {value : β → Value α} {args : List β}
    (h : ∀ a ∈ args, (toAtom a).eval lib macros env = some (value a)) :
    evalArgs lib macros env (args.map toAtom) = some (args.map value) := by
  induction args with
  | nil => rfl
  | cons a args ih =>
    obtain ⟨ha, hargs⟩ := List.forall_mem_cons.1 h
    rw [List.map_cons, evalArgs, ha, ih hargs]
    rfl

theorem exec_next {s : Stmt} {env' : Env α} (h : s.exec lib macros env = some (.next env'))
    (body : List Stmt) : exec lib macros env (s :: body) = exec lib macros env' body := by
  rw [exec, h]
  rfl

theorem exec_ended {s : Stmt} {e : Ended α} (h : s.exec lib macros env = some (.ended e))
    (body : List Stmt) : exec lib macros env (s :: body) = some e := by
  rw [exec, h]
  rfl

end CLang
