import CargoStylus.Deploy
import CargoStylus.Evm.Machine

/-!
# What the init code deploys

Run as init code, `contractDeploymentCalldata code` returns `code`
(`initCode_returns_code`). It reads seven instructions, at `initPath` : all of them are in
the prelude before its last byte, so neither the version nor the code is ever an
instruction. The machine is deterministic, so there is no other way to halt. The prelude
depends only on the length of the code, and the two extractions split the init code at its
end.
-/

namespace CargoStylus

open Rust Evm

/-- The prelude of code of length `n` : the instructions, and the version. -/
def contractPrelude (n : ℕ) : Bytes :=
  0x7f :: toBe 32 n ++ [0x80, 0x60, 0x2b, 0x60, 0x00, 0x39, 0x60, 0x00, 0xf3, 0x00]

/-- Where the init code's instructions are. -/
def initPath : List ℕ :=
  [0, 33, 34, 36, 38, 39, 41]

@[simp] theorem length_contractPrelude (n : ℕ) : (contractPrelude n).length = 43 := by
  simp [contractPrelude]

theorem contractDeploymentCalldata_eq (code : Bytes) :
    contractDeploymentCalldata code = contractPrelude code.length ++ code := by
  simp [contractDeploymentCalldata, contractPrelude]

theorem extractPrelude_contractDeploymentCalldata (code : Bytes) :
    extractContractEvmDeploymentPrelude (contractDeploymentCalldata code) =
      .ok (contractPrelude code.length) := by
  have hlen := length_contractDeploymentCalldata code
  rw [extractContractEvmDeploymentPrelude_of_le (by omega), contractDeploymentCalldata_eq,
    ← length_contractPrelude code.length, List.take_left]

/-- The word that `PUSH32` pushes is the length of the code. -/
theorem toNat_lengthWord {n : ℕ} (h : n < 2 ^ 64) :
    (BitVec.ofNat 256 (ofBe (toBe 32 n))).toNat = n := by
  rw [ofBe_toBe, BitVec.toNat_ofNat]
  omega

/-- The prelude is at the start of the init code. -/
theorem codeAt_contractPrelude (code : Bytes) :
    CodeAt (contractDeploymentCalldata code) 0 (contractPrelude code.length) := by
  rw [contractDeploymentCalldata_eq]
  exact codeAt_append _ _

/-- Behind the prelude is the code. -/
theorem bytesAt_contractDeploymentCalldata (code : Bytes) :
    bytesAt (contractDeploymentCalldata code) 43 code.length = code := by
  rw [contractDeploymentCalldata_eq, ← length_contractPrelude code.length]
  exact bytesAt_append _ _

theorem executes_contractDeploymentCalldata (code : Bytes) (h : code.length < 2 ^ 64) :
    Executes (contractDeploymentCalldata code) State.initial initPath (.returned code) := by
  set calldata := contractDeploymentCalldata code
  set len : Word := BitVec.ofNat 256 (ofBe (toBe 32 code.length))
  set offset : Word := BitVec.ofNat 256 (ofBe [0x2b])
  set zero : Word := BitVec.ofNat 256 (ofBe [0x00])
  have hoffset : offset.toNat = 43 := rfl
  have hzero : zero.toNat = 0 := rfl
  have hlenNat : len.toNat = code.length := toNat_lengthWord h
  have hcopy : bytesAt calldata 43 len.toNat = code := by
    rw [hlenNat, bytesAt_contractDeploymentCalldata]
  -- the bytes of each instruction, one behind the other
  have c0 : CodeAt calldata 0 (contractPrelude code.length) := codeAt_contractPrelude code
  have c33 : CodeAt calldata 33 [0x80, 0x60, 0x2b, 0x60, 0x00, 0x39, 0x60, 0x00, 0xf3, 0x00] := by
    have hskip := CodeAt.skip (a := 0x7f :: toBe 32 code.length) c0
    rwa [List.length_cons, length_toBe] at hskip
  have c34 : CodeAt calldata 34 [0x60, 0x2b, 0x60, 0x00, 0x39, 0x60, 0x00, 0xf3, 0x00] :=
    CodeAt.skip (a := [0x80]) c33
  have c36 : CodeAt calldata 36 [0x60, 0x00, 0x39, 0x60, 0x00, 0xf3, 0x00] :=
    CodeAt.skip (a := [0x60, 0x2b]) c34
  have c38 : CodeAt calldata 38 [0x39, 0x60, 0x00, 0xf3, 0x00] :=
    CodeAt.skip (a := [0x60, 0x00]) c36
  have c39 : CodeAt calldata 39 [0x60, 0x00, 0xf3, 0x00] := CodeAt.skip (a := [0x39]) c38
  have c41 : CodeAt calldata 41 [0xf3, 0x00] := CodeAt.skip (a := [0x60, 0x00]) c39
  -- one step an instruction
  have s0 : step calldata State.initial = .continues ⟨33, [len], State.initial.memory⟩ := by
    have hstep := step_push (s := State.initial) (toBe 32 code.length) c0 (by simp)
      (by simp) (by simp [State.initial])
    simpa [State.initial] using hstep
  have s33 : ∀ m, step calldata ⟨33, [len], m⟩ = .continues ⟨34, [len, len], m⟩ :=
    fun _ => step_dup (n := 0) c33 (by simp) rfl rfl (by simp)
  have s34 : ∀ m, step calldata ⟨34, [len, len], m⟩ = .continues ⟨36, [offset, len, len], m⟩ :=
    fun _ => step_push [0x2b] c34 (by simp) rfl (by simp)
  have s36 : ∀ m, step calldata ⟨36, [offset, len, len], m⟩ =
      .continues ⟨38, [zero, offset, len, len], m⟩ :=
    fun _ => step_push [0x00] c36 (by simp) rfl (by simp)
  have s38 : ∀ m : Memory, step calldata ⟨38, [zero, offset, len, len], m⟩ =
      .continues ⟨39, [len], m.write 0 code⟩ := by
    intro m
    have hstep := step_codecopy (s := ⟨38, [zero, offset, len, len], m⟩) c38 rfl
    rwa [hzero, hoffset, hcopy] at hstep
  have s39 : ∀ m, step calldata ⟨39, [len], m⟩ = .continues ⟨41, [zero, len], m⟩ :=
    fun _ => step_push [0x00] c39 (by simp) rfl (by simp)
  have s41 : ∀ m : Memory, step calldata ⟨41, [zero, len], m.write 0 code⟩ =
      .halts (.returned code) := by
    intro m
    have hstep := step_ret (s := ⟨41, [zero, len], m.write 0 code⟩) c41 rfl
    rwa [hzero, hlenNat, Memory.read_write] at hstep
  exact .next s0 <| .next (s33 _) <| .next (s34 _) <| .next (s36 _) <| .next (s38 _) <|
    .next (s39 _) <| .halt (s41 _)

/-- Run as init code, the calldata reads its seven instructions and returns the code, and
does nothing else. It splits into a prelude that the length of the code fixes, and the
code. -/
theorem initCode_returns_code (code : Bytes) (h : code.length < 2 ^ 64) :
    (∀ pcs halt, Executes (contractDeploymentCalldata code) State.initial pcs halt ↔
      pcs = initPath ∧ halt = .returned code) ∧
    (∀ pc ∈ initPath, pc < 42) ∧
    extractContractEvmDeploymentPrelude (contractDeploymentCalldata code) =
      .ok (contractPrelude code.length) ∧
    (contractPrelude code.length).length = 43 ∧
    extractCompressedWasm (contractDeploymentCalldata code) = .ok code := by
  refine ⟨?_, ?_, ?_, ?_, ?_⟩
  · exact (executes_contractDeploymentCalldata code h).iff_of_executes
  · simp [initPath]
  · exact extractPrelude_contractDeploymentCalldata code
  · exact length_contractPrelude code.length
  · exact extract_contractDeploymentCalldata code

theorem initCode_returns_code_three :
    ([0xef, 0xf0, 0x00] : Bytes).length < 2 ^ 64 ∧
    ∀ pcs halt, Executes (contractDeploymentCalldata [0xef, 0xf0, 0x00]) State.initial pcs halt ↔
      pcs = initPath ∧ halt = .returned [0xef, 0xf0, 0x00] :=
  ⟨by simp, (initCode_returns_code [0xef, 0xf0, 0x00] (by simp)).1⟩

end CargoStylus
