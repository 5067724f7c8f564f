import CargoStylus.Cli.CommandLine

/-!
# A parser of long options

`longOptions` is an `ArgParser`. It knows arguments by their long names only, and takes a
value from the word that names the option. It finds the occurrences of a line one word after
the other (`scan_words`), and rejects a line that repeats an argument or on which a group is
not satisfied.
-/

namespace Cli

open Rust (Text)

variable {cmd : Command}

/-- How many values an argument takes, if the command has it. -/
def Command.arity? (cmd : Command) (name : Text) : Option Arity :=
  (cmd.args.find? fun a => a.1 = name).map Prod.snd

theorem Command.arity?_of_mem {name : Text} {arity : Arity} (h : (name, arity) ∈ cmd.args) :
    cmd.arity? name = some arity := by
  cases hfind : cmd.args.find? fun a => a.1 = name with
  | none =>
    have hnone := List.find?_eq_none.1 hfind _ h
    simp at hnone
  | some a =>
    have hname : a.1 = name := by simpa using List.find?_some hfind
    have hmem := List.mem_of_find?_eq_some hfind
    obtain rfl : a = (name, arity) := List.inj_on_of_nodup_map cmd.nodup hmem h hname
    rw [Command.arity?, hfind]
    rfl

/-- The occurrences on a line. -/
def scan (cmd : Command) : List Text → Option (List Occurrence)
  | [] => some []
  | word :: words =>
    match word with
    | '-' :: '-' :: body =>
      let name := body.takeWhile (· ≠ '=')
      match cmd.arity? name, body.dropWhile (· ≠ '=') with
      | some .flag, [] => (scan cmd words).map (.flag name :: ·)
      | some .single, _ :: value => (scan cmd words).map (.value name value :: ·)
      | some .many, _ :: value => (scan cmd words).map (.value name value :: ·)
      | some .rest, [] => some [.rest name words]
      | _, _ => none
    | _ => none

theorem takeWhile_name {name : Text} (h : '=' ∉ name) :
    name.takeWhile (· ≠ '=') = name ∧ name.dropWhile (· ≠ '=') = [] := by
  have hall : ∀ c ∈ name, decide (c ≠ '=') = true := by
    intro c hc
    simpa using fun heq : c = '=' => h (heq ▸ hc)
  exact ⟨List.takeWhile_eq_self_iff.2 hall, List.dropWhile_eq_nil_iff.2 hall⟩

theorem takeWhile_value {name : Text} (value : Text) (h : '=' ∉ name) :
    (name ++ '=' :: value).takeWhile (· ≠ '=') = name ∧
      (name ++ '=' :: value).dropWhile (· ≠ '=') = '=' :: value := by
  have hall : ∀ c ∈ name, decide (c ≠ '=') = true := by
    intro c hc
    simpa using fun heq : c = '=' => h (heq ▸ hc)
  rw [List.takeWhile_append_of_pos hall, List.dropWhile_append_of_pos hall]
  simp

/-- A line is read as the occurrences it was written from. -/
theorem scan_words : ∀ {occurrences : List Occurrence}, (∀ o ∈ occurrences, cmd.Declares o) →
    Command.RestLast occurrences →
    scan cmd (occurrences.flatMap Occurrence.words) = some occurrences
  | [], _, _ => rfl
  | o :: occurrences, hdeclared, hlast => by
    have ho := hdeclared o List.mem_cons_self
    have htail := scan_words (fun o' ho' => hdeclared o' (List.mem_cons_of_mem o ho')) hlast.2
    cases o with
    | flag name =>
      obtain ⟨htake, hdrop⟩ := takeWhile_name (cmd.noEquals _ ho)
      simp only [List.flatMap_cons, Occurrence.words, List.cons_append, List.nil_append, scan,
        htake, hdrop, Command.arity?_of_mem ho, htail, Option.map_some]
    | value name v =>
      rcases ho with hsingle | hmany
      · obtain ⟨htake, hdrop⟩ := takeWhile_value v (cmd.noEquals _ hsingle)
        simp only [List.flatMap_cons, Occurrence.words, List.cons_append, List.nil_append, scan,
          htake, hdrop, Command.arity?_of_mem hsingle, htail, Option.map_some]
      · obtain ⟨htake, hdrop⟩ := takeWhile_value v (cmd.noEquals _ hmany)
        simp only [List.flatMap_cons, Occurrence.words, List.cons_append, List.nil_append, scan,
          htake, hdrop, Command.arity?_of_mem hmany, htail, Option.map_some]
    | rest name values =>
      obtain rfl := hlast.1 trivial
      obtain ⟨htake, hdrop⟩ := takeWhile_name (cmd.noEquals _ ho)
      simp only [List.flatMap_cons, List.flatMap_nil, Occurrence.words, List.append_nil, scan,
        htake, hdrop, Command.arity?_of_mem ho]

/-- The first word of a line is an occurrence, or starts the one that takes all the words. -/
theorem scan_cons {word : Text} {words : List Text} {occurrences : List Occurrence}
    (h : scan cmd (word :: words) = some occurrences) :
    (∃ o rest, occurrences = o :: rest ∧ scan cmd words = some rest ∧
      ∀ name, ∀ value ∈ o.valuesOf name, value <:+ word) ∨
    ∃ name, occurrences = [.rest name words] := by
  have hsuffix : ∀ {body value : Text} {c : Char}, body.dropWhile (· ≠ '=') = c :: value →
      value <:+ '-' :: '-' :: body := by
    intro body value c hdrop
    have hbody : c :: value <:+ body := hdrop ▸ List.dropWhile_suffix _
    exact ((List.suffix_cons c value).trans hbody).trans
      ((List.suffix_cons '-' body).trans (List.suffix_cons '-' _))
  unfold scan at h
  split at h
  · rename_i body
    simp only at h
    split at h
    · obtain ⟨rest, hrest, rfl⟩ := Option.map_eq_some_iff.1 h
      exact .inl ⟨_, rest, rfl, hrest, fun _ _ hv => by cases hv⟩
    · rename_i hdrop
      obtain ⟨rest, hrest, rfl⟩ := Option.map_eq_some_iff.1 h
      refine .inl ⟨_, rest, rfl, hrest, fun _ _ hv => ?_⟩
      exact Occurrence.eq_of_mem_valuesOf hv ▸ hsuffix hdrop
    · rename_i hdrop
      obtain ⟨rest, hrest, rfl⟩ := Option.map_eq_some_iff.1 h
      refine .inl ⟨_, rest, rfl, hrest, fun _ _ hv => ?_⟩
      exact Occurrence.eq_of_mem_valuesOf hv ▸ hsuffix hdrop
    · exact .inr ⟨_, (Option.some.inj h).symm⟩
    · cases h
  · cases h

/-- The values found on a line are words of it, or ends of words. -/
theorem scan_suffix : ∀ {words : List Text} {occurrences : List Occurrence},
    scan cmd words = some occurrences → ∀ {name value : Text},
    value ∈ (matchesOf occurrences).values name → ∃ word ∈ words, value <:+ word
  | [], _, h, _, _, hvalue => by
    obtain rfl := Option.some.inj h
    cases hvalue
  | word :: words, _, h, name, value, hvalue => by
    obtain ⟨o, ho, hv⟩ := List.mem_flatMap.1 hvalue
    rcases scan_cons h with ⟨first, rest, rfl, hrest, hfirst⟩ | ⟨arg, rfl⟩
    · rcases List.mem_cons.1 ho with rfl | ho
      · exact ⟨word, List.mem_cons_self, hfirst name value hv⟩
      · have hmem : value ∈ (matchesOf rest).values name := List.mem_flatMap.2 ⟨o, ho, hv⟩
        obtain ⟨word', hword', hsuffix⟩ := scan_suffix hrest hmem
        exact ⟨word', List.mem_cons_of_mem word hword', hsuffix⟩
    · obtain rfl := List.mem_singleton.1 ho
      have hmem := Occurrence.mem_of_mem_valuesOf hv
      exact ⟨value, List.mem_cons_of_mem word hmem, List.suffix_rfl⟩

/-- A parser of lines of long options. -/
def longOptions : ArgParser where
  parse cmd words :=
    match scan cmd words with
    | none => .error "unexpected argument"
    | some occurrences =>
      if ((occurrences.map Occurrence.name).filter fun name => (name, .many) ∉ cmd.args).Nodup then
        if cmd.GroupsHold occurrences then .ok (matchesOf occurrences)
        else .error "the arguments do not satisfy a group"
      else .error "an argument cannot be used multiple times"
  parse_line := by
    intro cmd occurrences m hline
    simp only [scan_words hline.declared hline.last, hline.once, if_true]
    refine ⟨fun h => ?_, fun ⟨hgroups, hm⟩ => ?_⟩
    · split_ifs at h with hgroups
      exact ⟨hgroups, (Except.ok.inj h).symm⟩
    · rw [if_pos hgroups, hm]
  value_suffix := by
    intro cmd words m name value hparse hvalue
    split at hparse
    · cases hparse
    · rename_i occurrences hscan
      split_ifs at hparse
      obtain rfl := Except.ok.inj hparse
      exact scan_suffix hscan hvalue

theorem longOptions_findsFirstFlag : longOptions.FindsFirstFlag := by
  intro cmd name words m hflag hparse
  obtain ⟨htake, hdrop⟩ := takeWhile_name (cmd.noEquals _ hflag)
  simp only [longOptions, scan, htake, hdrop, Command.arity?_of_mem hflag] at hparse
  split at hparse
  · cases hparse
  · rename_i occurrences hscan
    split_ifs at hparse
    obtain rfl := Except.ok.inj hparse
    obtain ⟨rest, -, rfl⟩ := Option.map_eq_some_iff.1 hscan
    exact decide_eq_true List.mem_cons_self

end Cli
