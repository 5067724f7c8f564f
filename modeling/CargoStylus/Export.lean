import CargoStylus.Docker
import CargoStylus.SameBuild

/-!
# Exporting the ABI

`export-abi` and `constructor` run the contract natively and write what it prints to a file or to
the standard output. A file is created only once there is something to write. Then all that the
contract has printed is written, or all that `solc` has made of it, whether or not `solc` has
failed (`exportAbi_writes`).

The signature of a constructor is written as it was printed. It is one that a deployment would
find, unless there is space in front of it (`printConstructor_writes_iff`).
-/

namespace CargoStylus.Exports

open Rust Rust.Interaction Rust.Interaction.Prog

/-! ## The requests -/

/-- What the commands ask of the system. -/
inductive ExportRequest where
  /-- `sys::command_exists`. -/
  | commandExists (program : Text)
  /-- Run `cargo` to its end. -/
  | cargo (args : List Text)
  | spawn (program : Text) (args : List Text)
  | writeStdin (program : Text) (bytes : Bytes)
  | waitWithOutput (program : Text)
  /-- Create a file, or empty it. -/
  | create (file : PathBuf)
  /-- Write to a file, or to the standard output. -/
  | writeAll (file : Option PathBuf) (bytes : Bytes)

/-- What a request is responded to by. -/
abbrev ExportRequest.Response : ExportRequest → Type
  | commandExists _ => Bool
  | cargo _ | waitWithOutput _ => Output
  | _ => Unit

/-- A command, as its requests to the system. -/
abbrev Export (α : Type) := Prog ExportRequest ExportRequest.Response String α

/-- A request and the response to it, or the error. -/
abbrev ExportEntry := Σ r : ExportRequest, Except String r.Response

/-- The requests of a run, with the responses to them. -/
abbrev ExportLog := Log ExportRequest ExportRequest.Response String

/-! ## The commands -/

/-- Where `solc` is got from. -/
def solcLink : String :=
  "https://docs.soliditylang.org/en/latest/installing-solidity.html"

/-- The Solidity compiler. -/
def solc : Text :=
  "solc".toList

/-- Whether there is such a program. If that cannot be told, there is not. -/
def commandExists (program : Text) : Export Bool :=
  askWith (ExportRequest.commandExists program) fun found => .ok (found.toOption.getD false)

/-- A file that is open for writing, or the standard output. -/
def fileOrStdout : Option PathBuf → Export Unit
  | some file => ask (ExportRequest.create file)
  | none => return ()

/-- Write all of the output to the file, or to the standard output. -/
def writeOutput (file : Option PathBuf) (output : Bytes) : Export Unit := do
  fileOrStdout file
  ask (ExportRequest.writeAll file output)

section

variable (hostArch : Except String Text)

/-- Run the contract with `export-abi`, and take what it prints. -/
def runExport (command : Text) (features : Option Text) : Export Bytes := do
  let target ← done (.wrapErr "failed to get host arch" (.ofExcept hostArch))
  let output ← ask (ExportRequest.cargo (runExportArgs target command features))
  if output.success then
    return output.stdout
  else
    let out := fromUtf8Lossy output.stdout
    let out := if out = [] then "" else ": " ++ String.ofList out
    -- the process ends here, with status 1
    done (.err ("failed to run contract " ++ out))

/-- The conversion of an ABI to JSON. -/
def solcAbi (output : Bytes) : Export Bytes := do
  askWith (ExportRequest.spawn solc ["--abi".toList, "-".toList]) fun child =>
    .wrapErr "failed to run solc" (.ofExcept child)
  ask (ExportRequest.writeStdin solc output)
  -- the status of `solc` is not looked at
  askWith (ExportRequest.waitWithOutput solc) fun out => .ofExcept (out.map Output.stdout)

/-- Write the ABI that the contract prints, or the JSON that `solc` makes of it. -/
def exportAbi (file : Option PathBuf) (json : Bool) (rustFeatures : Option (List Text)) :
    Export Unit := do
  let found ← (if json then commandExists solc else pure true : Export Bool)
  if found then
    let output ← runExport hostArch "abi".toList (rustFeatures.map (join [',']))
    let output ← (if json then solcAbi output else pure output : Export Bytes)
    writeOutput file output
  else done (.err s!"solc not found. Please see\n{red}{solcLink}{clear}")

/-- Write the signature that the contract prints, if it is one of a constructor. -/
def printConstructor (showUtf8Error : Bytes → String) (file : Option PathBuf)
    (rustFeatures : Option (List Text)) : Export Unit := do
  let output ← runExport hostArch "constructor".toList (rustFeatures.map (join [',']))
  let signature ← done (.ofOption (showUtf8Error output) (fromUtf8 output))
  if "constructor".toList.isPrefixOf signature then writeOutput file output
  else return ()

end

/-! ## What is written -/

/-- The request changes a file, or prints. -/
def ExportRequest.IsOutput : ExportRequest → Prop
  | create _ | writeAll _ _ => True
  | _ => False

/-- The requests that write these bytes. -/
def outputRequests (file : Option PathBuf) (bytes : Bytes) : List ExportRequest :=
  file.toList.map .create ++ [.writeAll file bytes]

/-- Nothing is written at first, and then the requests to write some bytes come in their order.
All of them come if the command ends well. -/
def Writes (file : Option PathBuf) (P : ExportLog → Bytes → Prop) (log : ExportLog)
    (o : Outcome String Unit) : Prop :=
  ∃ before after, log = before ++ after ∧ (∀ entry ∈ before, ¬entry.1.IsOutput) ∧
    (after ≠ [] ∨ o.IsOk → ∃ bytes, P before bytes ∧
      after.map Sigma.fst <+: outputRequests file bytes ∧
      (o.IsOk → after.map Sigma.fst = outputRequests file bytes))

variable {file : Option PathBuf} {json : Bool} {command : Text} {features : Option Text}
  {P : ExportLog → Bytes → Prop} {log log' : ExportLog} {o : Outcome String Unit}

theorem Writes.prepend (hlog : ∀ entry ∈ log, ¬entry.1.IsOutput)
    (h : Writes file (fun before => P (log ++ before)) log' o) : Writes file P (log ++ log') o := by
  obtain ⟨before, after, rfl, hbefore, hafter⟩ := h
  exact ⟨log ++ before, after, (List.append_assoc _ _ _).symm,
    List.forall_mem_append.2 ⟨hlog, hbefore⟩, hafter⟩

theorem writes_nothing (hlog : ∀ entry ∈ log, ¬entry.1.IsOutput) (ho : ¬o.IsOk) :
    Writes file P log o :=
  ⟨log, [], (List.append_nil _).symm, hlog, fun h => absurd h (not_or.2 ⟨not_not.2 rfl, ho⟩)⟩

theorem writeOutput_writes {bytes : Bytes} (hP : P [] bytes) :
    wp (writeOutput file bytes) (Writes file P) := by
  rcases file with _ | file
  · intro response
    exact ⟨[], _, rfl, nofun, fun _ => ⟨bytes, hP, List.prefix_refl _, fun _ => rfl⟩⟩
  · rintro (e | _)
    · refine ⟨[], _, rfl, nofun, fun _ => ⟨bytes, hP, ⟨[.writeAll (some file) bytes], rfl⟩, ?_⟩⟩
      exact fun h => absurd h (Outcome.not_isOk_err e)
    · intro response
      exact ⟨[], _, rfl, nofun, fun _ => ⟨bytes, hP, List.prefix_refl _, fun _ => rfl⟩⟩

/-- `cargo` has run the contract with the features that are asked for, and it has printed these
bytes. -/
def Ran (command : Text) (features : Option Text) (log : ExportLog) (bytes : Bytes) : Prop :=
  ∃ args out, requestedFeatures args = insert CargoStylus.exportAbi (featureSet features) ∧
    ["--".toList, command] <:+ args ∧ (⟨.cargo args, .ok out⟩ : ExportEntry) ∈ log ∧
    out.success = true ∧ out.stdout = bytes

theorem Ran.mono {bytes : Bytes} (h : Ran command features log bytes)
    (hsub : ∀ entry ∈ log, entry ∈ log') : Ran command features log' bytes := by
  obtain ⟨args, out, hfeatures, hcommand, hmem, hout⟩ := h
  exact ⟨args, out, hfeatures, hcommand, hsub _ hmem, hout⟩

theorem runExport_ran (hostArch : Except String Text) (command : Text) (features : Option Text) :
    Yields ExportRequest.IsOutput (Ran command features) (runExport hostArch command features) := by
  refine (yields_done (R := fun _ _ => True) fun _ _ => trivial).bind fun log target _ => ?_
  refine (yields_askWith id _).bind fun log' output houtput => ?_
  obtain ⟨response, rfl, hresponse⟩ := houtput
  obtain rfl := Outcome.ofExcept_eq_ok.1 hresponse
  split_ifs with hsuccess
  · refine yields_done fun bytes hbytes => ?_
    obtain rfl := Outcome.ok.inj hbytes
    refine ⟨_, output, requestedFeatures_runExportArgs target command features, ?_, ?_, hsuccess,
      rfl⟩
    · exact List.suffix_append (["run".toList, "--quiet".toList,
        "--features=export-abi,".toList ++ features.getD [], "--target=".toList ++ target]) _
    · simp
  · exact yields_err _

/-- `solc` was given the ABI, and has ended with this output. -/
def Converted (abi : Bytes) (log : ExportLog) (bytes : Bytes) : Prop :=
  (⟨.writeStdin solc abi, .ok ()⟩ : ExportEntry) ∈ log ∧
    ∃ out, (⟨.waitWithOutput solc, .ok out⟩ : ExportEntry) ∈ log ∧ out.stdout = bytes

theorem solcAbi_converted (abi : Bytes) :
    Yields ExportRequest.IsOutput (Converted abi) (solcAbi abi) := by
  refine (yields_askWith id _).bind fun log _ _ => ?_
  refine (yields_askWith id _).bind fun log' _ hwrite => ?_
  obtain ⟨response, rfl, hresponse⟩ := hwrite
  obtain rfl := Outcome.ofExcept_eq_ok.1 hresponse
  refine wp_mono (yields_askWith id _) fun log'' o h => ⟨h.1, fun bytes hbytes => ?_⟩
  obtain ⟨out, rfl, hout⟩ := h.2 bytes hbytes
  rcases out with e | out
  · cases hout
  · exact ⟨by simp, out, by simp, Outcome.ok.inj hout⟩

/-- What is to be written : what the contract has printed, or what `solc` has made of it. -/
def Exported (json : Bool) (features : Option Text) (log : ExportLog) (bytes : Bytes) : Prop :=
  if json then ∃ abi, Ran "abi".toList features log abi ∧ Converted abi log bytes
  else Ran "abi".toList features log bytes

theorem writeAbi_writes {before : ExportLog} {abi : Bytes}
    (hran : Ran "abi".toList features before abi) :
    wp ((if json then solcAbi abi else pure abi) >>= writeOutput file)
      (Writes file fun log => Exported json features (before ++ log)) := by
  rcases json
  · refine writeOutput_writes ?_
    rw [List.append_nil]
    exact hran
  · refine (solcAbi_converted abi).wp_bind (fun log output hlog hconverted => ?_)
      fun log o hlog ho => writes_nothing hlog ho
    refine wp_mono (writeOutput_writes (P := fun log' => Exported true features
      (before ++ (log ++ log'))) ?_) fun log' o h => h.prepend hlog
    obtain ⟨hwrite, out, hout, rfl⟩ := hconverted
    rw [List.append_nil]
    exact ⟨abi, hran.mono fun entry hentry => List.mem_append_left _ hentry,
      List.mem_append_right _ hwrite, out, List.mem_append_right _ hout, rfl⟩

/-- **All that was exported is written, and nothing else is**, whatever fails. -/
theorem exportAbi_writes (hostArch : Except String Text) (file : Option PathBuf) (json : Bool)
    (rustFeatures : Option (List Text)) :
    wp (exportAbi hostArch file json rustFeatures)
      (Writes file (Exported json (rustFeatures.map (join [','])))) := by
  have hfound : Yields ExportRequest.IsOutput (fun _ _ => True)
      (if json then commandExists solc else pure true) := by
    rcases json
    · exact yields_done fun _ _ => trivial
    · exact wp_mono (yields_askWith id _) fun _ _ h => ⟨h.1, fun _ _ => trivial⟩
  refine hfound.wp_bind (fun log found hlog _ => ?_) fun log o hlog ho => writes_nothing hlog ho
  by_cases hsolc : found = true
  · rw [if_pos hsolc]
    refine (runExport_ran hostArch _ _).wp_bind (fun log' abi hlog' hran => ?_)
      fun log' o hlog' ho => writes_nothing (List.forall_mem_append.2 ⟨hlog, hlog'⟩) ho
    have hran' := hran.mono fun entry hentry => List.mem_append_right log hentry
    refine wp_mono (writeAbi_writes hran') fun log'' o h => ?_
    rw [← List.append_assoc]
    exact h.prepend (List.forall_mem_append.2 ⟨hlog, hlog'⟩)
  · rw [if_neg hsolc]
    refine writes_nothing ?_ (Outcome.not_isOk_err _)
    rwa [List.append_nil]

/-! ## The constructor -/

/-- A word without spaces starts a text if it starts the text without the spaces around it, and
there is no space in front. -/
theorem prefix_iff_prefix_trim {word : Text} (hne : word ≠ [])
    (hspace : word.any isWhitespace = false) {text : Text} :
    word <+: text ↔ word <+: trim text ∧ ∀ c ∈ text.head?, isWhitespace c = false := by
  have hword : ∀ c ∈ word, isWhitespace c = false :=
    fun c hc => Bool.eq_false_iff.2 (List.any_eq_false.1 hspace c hc)
  refine ⟨fun h => ?_, fun h => ?_⟩
  · obtain ⟨rest, rfl⟩ := h
    obtain ⟨c, cs, rfl⟩ := List.exists_cons_of_ne_nil hne
    have hfirst := hword c List.mem_cons_self
    refine ⟨?_, fun c' hc' => ?_⟩
    · rw [trim, List.cons_append, List.dropWhile_cons_of_neg (Bool.eq_false_iff.1 hfirst),
        ← List.cons_append, List.rdropWhile, List.reverse_append, List.dropWhile_append]
      split_ifs
      · have hkept : (c :: cs).reverse.dropWhile isWhitespace = (c :: cs).reverse := by
          refine List.dropWhile_eq_self_iff.2 fun hlen => ?_
          exact Bool.eq_false_iff.1 (hword _ (List.mem_reverse.1 (List.getElem_mem hlen)))
        rw [hkept, List.reverse_reverse]
      · rw [List.reverse_append, List.reverse_reverse]
        exact List.prefix_append _ _
    · obtain rfl := Option.some.inj hc'
      exact hfirst
  · obtain ⟨hstarts, hhead⟩ := h
    have hdrop : text.dropWhile isWhitespace = text := by
      rcases text with _ | ⟨c, text⟩
      · rfl
      · exact List.dropWhile_cons_of_neg (Bool.eq_false_iff.1 (hhead c rfl))
    rw [trim, hdrop] at hstarts
    exact hstarts.trans (List.rdropWhile_prefix _ _)

/-- What every deployment without features would make of the constructor that was printed. -/
def Found (text : Text) : Prop :=
  ∀ {Param : Type} (parse : Text → Except String (Constructor Param)),
    getConstructorSignature parse (.ok text) ≠ .ok none

theorem found_iff {text : Text} : Found text ↔ "constructor".toList <+: trim text := by
  refine ⟨fun h => ?_, fun h Param parse => ?_⟩
  · by_contra hstarts
    refine @h Unit (fun _ => .error "") ?_
    rw [← List.isPrefixOf_iff_prefix] at hstarts
    exact if_neg hstarts
  · have hsome : getConstructorSignature parse (.ok text) = some <$> parse (trim text) :=
      if_pos (List.isPrefixOf_iff_prefix.2 h)
    rw [hsome]
    rcases parse (trim text) with e | c
    · exact nofun
    · exact nofun

theorem printed_iff {text : Text} : "constructor".toList.isPrefixOf text = true ↔
    Found text ∧ ∀ c ∈ text.head?, isWhitespace c = false := by
  rw [List.isPrefixOf_iff_prefix, found_iff]
  exact prefix_iff_prefix_trim (List.cons_ne_nil _ _) rfl

/-- **The constructor is printed where a deployment would find it**, and there is no space in
front of it. -/
theorem printConstructor_writes_iff (hostArch : Except String Text) (showUtf8Error : Bytes → String)
    (file : Option PathBuf) (rustFeatures : Option (List Text)) :
    wp (printConstructor hostArch showUtf8Error file rustFeatures) fun log o => o = .ok () →
      ∃ before after bytes text, log = before ++ after ∧ (∀ entry ∈ before, ¬entry.1.IsOutput) ∧
        Ran "constructor".toList (rustFeatures.map (join [','])) before bytes ∧
        fromUtf8 bytes = some text ∧
        ((Found text ∧ ∀ c ∈ text.head?, isWhitespace c = false) ∧
            after.map Sigma.fst = outputRequests file bytes ∨
          ¬(Found text ∧ ∀ c ∈ text.head?, isWhitespace c = false) ∧ after = []) := by
  refine (runExport_ran hostArch _ _).wp_bind (fun log bytes hlog hran => ?_) fun log o _ ho hok =>
    absurd ⟨_, hok⟩ ho
  rcases htext : fromUtf8 bytes with _ | text
  · exact nofun
  change wp (if _ then _ else _) _
  split_ifs with hprinted
  · refine wp_mono (writeOutput_writes (P := fun before bytes' => before = [] ∧ bytes' = bytes)
      ⟨rfl, rfl⟩) fun log' o h hok => ?_
    obtain ⟨before, after, rfl, -, hafter⟩ := h
    obtain ⟨bytes', ⟨rfl, rfl⟩, -, hall⟩ := hafter (.inr ⟨_, hok⟩)
    exact ⟨log, after, bytes', text, rfl, hlog, hran, htext, .inl ⟨printed_iff.1 hprinted,
      hall ⟨_, hok⟩⟩⟩
  · intro _
    exact ⟨log, [], bytes, text, rfl, hlog, hran, htext,
      .inr ⟨fun h => hprinted (printed_iff.2 h), rfl⟩⟩

end CargoStylus.Exports
