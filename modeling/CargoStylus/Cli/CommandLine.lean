import Mathlib.Data.List.Nodup
import CargoStylus.Rust.Text

/-!
# Command lines

A command declares arguments by their long names : flags, options that take one value, once
or at each occurrence, and one that takes all the words that follow it. It may ask for
exactly one argument of a group. A command line is a list of occurrences, each written as one
word, `--name` or `--name=value`, or as `--name` followed by words.

`ArgParser` is a parser of command lines, with two laws : it finds the occurrences a line was
written from, unless a group is not satisfied, and a value it finds is a word of the line, or
the end of one.

A program that renders its settings writes an occurrence for each setting that is set. When
the settings have different names this is a command line (`isLine_occurrencesOf`), and its
matches are the settings (`flag_matchesOf`, `values_matchesOf`).
-/

namespace Cli

open Rust (Text)

/-! ## Commands -/

/-- How an argument takes its values. -/
inductive Arity where
  /-- It takes none. -/
  | flag
  /-- It takes one, and occurs at most once. -/
  | single
  /-- It takes one at each occurrence. -/
  | many
  /-- It takes all the words that follow. -/
  | rest
deriving DecidableEq

/-- What a command accepts. -/
structure Command where
  args : List (Text × Arity)
  /-- Groups of which exactly one argument must be present. -/
  groups : List (List Text)
  nodup : (args.map Prod.fst).Nodup
  noEquals : ∀ a ∈ args, '=' ∉ a.1

/-- An argument on a command line. -/
inductive Occurrence where
  | flag (name : Text)
  | value (name value : Text)
  | rest (name : Text) (values : List Text)
deriving DecidableEq

namespace Occurrence

/-- The argument it is for. -/
def name : Occurrence → Text
  | .flag name => name
  | .value name _ => name
  | .rest name _ => name

/-- The words it is written as. -/
def words : Occurrence → List Text
  | .flag name => ['-' :: '-' :: name]
  | .value name v => ['-' :: '-' :: (name ++ '=' :: v)]
  | .rest name values => ('-' :: '-' :: name) :: values

/-- The values it gives to the argument `arg`. -/
def valuesOf (arg : Text) : Occurrence → List Text
  | .flag _ => []
  | .value name v => if name = arg then [v] else []
  | .rest name values => if name = arg then values else []

/-- It takes all the words that follow. -/
def IsRest : Occurrence → Prop
  | .rest _ _ => True
  | _ => False

theorem valuesOf_of_ne {arg : Text} {o : Occurrence} (h : o.name ≠ arg) : o.valuesOf arg = [] := by
  cases o with
  | flag => rfl
  | value name value => exact if_neg h
  | rest name values => exact if_neg h

theorem eq_of_mem_valuesOf {name v arg text : Text} (h : text ∈ (value name v).valuesOf arg) :
    text = v := by
  simp only [valuesOf] at h
  split_ifs at h
  · exact List.mem_singleton.1 h
  · cases h

theorem mem_of_mem_valuesOf {name arg text : Text} {values : List Text}
    (h : text ∈ (rest name values).valuesOf arg) : text ∈ values := by
  simp only [valuesOf] at h
  split_ifs at h
  · exact h
  · cases h

end Occurrence

/-- What a command line sets : the flags on it, and the values it gives to each option. -/
structure Matches where
  flag : Text → Bool
  values : Text → List Text

/-- The value of an option that takes one. -/
def Matches.one (m : Matches) (name : Text) : Option Text :=
  (m.values name).head?

/-- What arguments on a command line set. -/
def matchesOf (occurrences : List Occurrence) : Matches where
  flag name := Occurrence.flag name ∈ occurrences
  values name := occurrences.flatMap (Occurrence.valuesOf name)

namespace Command

variable (cmd : Command)

/-- The command has this argument, and it takes its values this way. -/
def Declares : Occurrence → Prop
  | .flag name => (name, .flag) ∈ cmd.args
  | .value name _ => (name, .single) ∈ cmd.args ∨ (name, .many) ∈ cmd.args
  | .rest name _ => (name, .rest) ∈ cmd.args

/-- Nothing follows an argument that takes all the words. -/
def RestLast : List Occurrence → Prop
  | [] => True
  | o :: occurrences => (o.IsRest → occurrences = []) ∧ RestLast occurrences

/-- A line of the command's arguments, each written in one way and repeated only if it may. -/
structure IsLine (occurrences : List Occurrence) : Prop where
  declared : ∀ o ∈ occurrences, cmd.Declares o
  once : ((occurrences.map Occurrence.name).filter fun name => (name, .many) ∉ cmd.args).Nodup
  last : RestLast occurrences

/-- One argument of each group is present. -/
def GroupsHold (occurrences : List Occurrence) : Prop :=
  ∀ group ∈ cmd.groups, (group.filter fun name => name ∈ occurrences.map Occurrence.name).length = 1

instance (occurrences : List Occurrence) : Decidable (cmd.GroupsHold occurrences) :=
  inferInstanceAs (Decidable (∀ group ∈ cmd.groups, _))

end Command

/-- A parser of command lines. -/
structure ArgParser where
  parse : Command → List Text → Except String Matches
  parse_line : ∀ {cmd : Command} {occurrences : List Occurrence} {m : Matches},
    cmd.IsLine occurrences → (parse cmd (occurrences.flatMap Occurrence.words) = .ok m ↔
      cmd.GroupsHold occurrences ∧ m = matchesOf occurrences)
  value_suffix : ∀ {cmd : Command} {words : List Text} {m : Matches} {name value : Text},
    parse cmd words = .ok m → value ∈ m.values name → ∃ word ∈ words, value <:+ word

/-- A flag that is the first word of a line is found, whatever follows. -/
def ArgParser.FindsFirstFlag (clap : ArgParser) : Prop :=
  ∀ {cmd : Command} {name : Text} {words : List Text} {m : Matches}, (name, .flag) ∈ cmd.args →
    clap.parse cmd (('-' :: '-' :: name) :: words) = .ok m → m.flag name = true

/-! ## Settings -/

/-- What a program renders of one argument. -/
inductive Setting where
  | flag (name : Text) (on : Bool)
  | value (name : Text) (value : Option Text)
  | rest (name : Text) (values : Option (List Text))
deriving DecidableEq

namespace Setting

/-- The argument that it sets. -/
def name : Setting → Text
  | .flag name _ => name
  | .value name _ => name
  | .rest name _ => name

/-- The occurrence it is rendered as, if it is set. -/
def occurrences : Setting → List Occurrence
  | .flag name on => if on then [.flag name] else []
  | .value name v => v.toList.map (.value name)
  | .rest name values => values.toList.map (.rest name)

theorem name_of_mem {s : Setting} {o : Occurrence} (h : o ∈ s.occurrences) : o.name = s.name := by
  cases s with
  | flag name on =>
    cases on with
    | false => cases h
    | true =>
      obtain rfl := List.mem_singleton.1 h
      rfl
  | value name v =>
    obtain ⟨v, -, rfl⟩ := List.mem_map.1 h
    rfl
  | rest name values =>
    obtain ⟨v, -, rfl⟩ := List.mem_map.1 h
    rfl

end Setting

/-- The command line of some settings. -/
def occurrencesOf (settings : List Setting) : List Occurrence :=
  settings.flatMap Setting.occurrences

theorem mem_names_of_mem {settings : List Setting} {o : Occurrence}
    (h : o ∈ occurrencesOf settings) : o.name ∈ settings.map Setting.name := by
  obtain ⟨s, hs, ho⟩ := List.mem_flatMap.1 h
  rw [Setting.name_of_mem ho]
  exact List.mem_map_of_mem hs

section Settings

variable {settings : List Setting}

theorem not_mem_of_not_mem {name : Text} (h : name ∉ settings.map Setting.name) :
    ∀ o ∈ occurrencesOf settings, o.name ≠ name :=
  fun _ ho heq => h (heq ▸ mem_names_of_mem ho)

/-- The values of an option are those of its setting. -/
theorem values_matchesOf (hnames : (settings.map Setting.name).Nodup) {s : Setting}
    (hs : s ∈ settings) : (matchesOf (occurrencesOf settings)).values s.name =
      s.occurrences.flatMap (Occurrence.valuesOf s.name) := by
  have others : ∀ {occurrences : List Occurrence}, (∀ o ∈ occurrences, o.name ≠ s.name) →
      occurrences.flatMap (Occurrence.valuesOf s.name) = [] :=
    fun h => List.flatMap_eq_nil_iff.2 fun o ho => Occurrence.valuesOf_of_ne (h o ho)
  induction settings with
  | nil => cases hs
  | cons t settings ih =>
    rw [List.map_cons, List.nodup_cons] at hnames
    have hcons : (matchesOf (occurrencesOf (t :: settings))).values s.name =
        t.occurrences.flatMap (Occurrence.valuesOf s.name) ++
          (matchesOf (occurrencesOf settings)).values s.name :=
      List.flatMap_append
    rcases List.mem_cons.1 hs with rfl | hs
    · have hrest : (matchesOf (occurrencesOf settings)).values s.name = [] :=
        others (not_mem_of_not_mem hnames.1)
      rw [hcons, hrest, List.append_nil]
    · have hne : t.name ≠ s.name := fun heq => hnames.1 (heq ▸ List.mem_map_of_mem hs)
      have hhere : ∀ o ∈ t.occurrences, o.name ≠ s.name := fun o ho => Setting.name_of_mem ho ▸ hne
      rw [hcons, others hhere, List.nil_append, ih hnames.2 hs]

theorem one_matchesOf (hnames : (settings.map Setting.name).Nodup) {name : Text} {v : Option Text}
    (hs : Setting.value name v ∈ settings) :
    (matchesOf (occurrencesOf settings)).one name = v := by
  have hvalues := values_matchesOf hnames hs
  rw [Setting.name] at hvalues
  rw [Matches.one, hvalues]
  cases v <;> simp [Setting.occurrences, Occurrence.valuesOf]

/-- A flag is on the line if it is set. -/
theorem flag_matchesOf (hnames : (settings.map Setting.name).Nodup) {name : Text} {on : Bool}
    (hs : Setting.flag name on ∈ settings) :
    (matchesOf (occurrencesOf settings)).flag name = on := by
  have hmem : Occurrence.flag name ∈ occurrencesOf settings ↔ on = true := by
    refine ⟨fun h => ?_, fun hon => ?_⟩
    · obtain ⟨t, ht, ho⟩ := List.mem_flatMap.1 h
      have hname : Setting.name (.flag name on) = t.name := Setting.name_of_mem ho
      obtain rfl := List.inj_on_of_nodup_map hnames hs ht hname
      cases on with
      | false => cases ho
      | true => rfl
    · subst hon
      exact List.mem_flatMap.2 ⟨_, hs, List.mem_singleton.2 rfl⟩
  cases on <;> simp [matchesOf, hmem]

/-- An option is on the line if it is set. -/
theorem mem_names_iff (hnames : (settings.map Setting.name).Nodup) {name : Text}
    {v : Option Text} (hs : Setting.value name v ∈ settings) :
    name ∈ (occurrencesOf settings).map Occurrence.name ↔ v.isSome := by
  refine ⟨fun h => ?_, fun h => ?_⟩
  · obtain ⟨o, ho, hname⟩ := List.mem_map.1 h
    obtain ⟨t, ht, ho⟩ := List.mem_flatMap.1 ho
    have hsame : Setting.name (.value name v) = t.name := hname.symm.trans (Setting.name_of_mem ho)
    obtain rfl := List.inj_on_of_nodup_map hnames hs ht hsame
    obtain ⟨text, htext, -⟩ := List.mem_map.1 ho
    exact Option.isSome_iff_exists.2 ⟨text, Option.mem_toList.1 htext⟩
  · obtain ⟨text, rfl⟩ := Option.isSome_iff_exists.1 h
    exact List.mem_map.2 ⟨.value name text, List.mem_flatMap.2 ⟨_, hs, by
      simp [Setting.occurrences]⟩, rfl⟩

/-- The setting is of an argument of the command. -/
def Setting.DeclaredBy (cmd : Command) : Setting → Prop
  | .flag name _ => (name, .flag) ∈ cmd.args
  | .value name _ => (name, .single) ∈ cmd.args ∨ (name, .many) ∈ cmd.args
  | .rest name _ => (name, .rest) ∈ cmd.args

instance (cmd : Command) (s : Setting) : Decidable (s.DeclaredBy cmd) :=
  match s with
  | .flag _ _ => inferInstanceAs (Decidable (_ ∈ _))
  | .value _ _ => inferInstanceAs (Decidable (_ ∨ _))
  | .rest _ _ => inferInstanceAs (Decidable (_ ∈ _))

/-- It is rendered with all the words that follow. -/
def Setting.IsRest : Setting → Prop
  | .rest _ _ => True
  | _ => False

theorem names_sublist : ∀ settings : List Setting,
    ((occurrencesOf settings).map Occurrence.name).Sublist (settings.map Setting.name)
  | [] => .slnil
  | s :: settings => by
    have hrest := names_sublist settings
    have hhere : (s.occurrences.map Occurrence.name).Sublist [s.name] := by
      cases s with
      | flag name on => cases on <;> simp [Setting.occurrences, Setting.name, Occurrence.name]
      | value name v => cases v <;> simp [Setting.occurrences, Setting.name, Occurrence.name]
      | rest name vs => cases vs <;> simp [Setting.occurrences, Setting.name, Occurrence.name]
    have happend := hhere.append hrest
    rwa [← List.map_append] at happend

theorem restLast_append : ∀ {before after : List Occurrence}, (∀ o ∈ before, ¬o.IsRest) →
    Command.RestLast after → Command.RestLast (before ++ after)
  | [], _, _, h => h
  | o :: _, _, hbefore, h =>
    ⟨fun ho => absurd ho (hbefore o List.mem_cons_self),
      restLast_append (fun o' ho' => hbefore o' (List.mem_cons_of_mem o ho')) h⟩

theorem isRest_of_mem {s : Setting} {o : Occurrence} (h : o ∈ s.occurrences) (ho : o.IsRest) :
    s.IsRest := by
  cases s with
  | flag name on =>
    cases on with
    | false => cases h
    | true =>
      obtain rfl := List.mem_singleton.1 h
      exact ho
  | value name v =>
    obtain ⟨v, -, rfl⟩ := List.mem_map.1 h
    exact ho
  | rest name vs => trivial

theorem restLast_occurrences (s : Setting) : Command.RestLast s.occurrences := by
  cases s with
  | flag name on => cases on <;> simp [Setting.occurrences, Command.RestLast]
  | value name v => cases v <;> simp [Setting.occurrences, Command.RestLast]
  | rest name vs => cases vs <;> simp [Setting.occurrences, Command.RestLast]

/-- Settings of different arguments of a command, with the one that takes all words at the
end, are rendered as a command line. -/
theorem isLine_occurrencesOf {cmd : Command} {init : List Setting} {last : Setting}
    (hdeclared : ∀ s ∈ init ++ [last], s.DeclaredBy cmd)
    (hnames : ((init ++ [last]).map Setting.name).Nodup) (hinit : ∀ s ∈ init, ¬s.IsRest) :
    cmd.IsLine (occurrencesOf (init ++ [last])) where
  declared := by
    intro o ho
    obtain ⟨s, hs, ho⟩ := List.mem_flatMap.1 ho
    have hs := hdeclared s hs
    cases s with
    | flag name on =>
      cases on with
      | false => cases ho
      | true =>
        obtain rfl := List.mem_singleton.1 ho
        exact hs
    | value name v =>
      obtain ⟨v, -, rfl⟩ := List.mem_map.1 ho
      exact hs
    | rest name vs =>
      obtain ⟨v, -, rfl⟩ := List.mem_map.1 ho
      exact hs
  once := (hnames.sublist (names_sublist _)).filter _
  last := by
    rw [occurrencesOf, List.flatMap_append, List.flatMap_singleton]
    refine restLast_append (fun o ho hrest => ?_) (restLast_occurrences last)
    obtain ⟨s, hs, ho⟩ := List.mem_flatMap.1 ho
    exact hinit s hs (isRest_of_mem ho hrest)

end Settings

end Cli
