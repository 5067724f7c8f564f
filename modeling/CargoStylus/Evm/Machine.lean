import CargoStylus.Rust.Memory

/-!
# The EVM, as far as init code needs it

The machine reads one instruction at its program counter, and `step` is what the
instruction does to the stack and the memory : pushing an immediate, duplicating an
element, copying code to memory, stopping and returning memory. Any other opcode halts the
machine as not modelled. Gas is not counted.

`Executes code s pcs halt` says that from `s` the machine halts as `halt`, after reading
instructions at `pcs` and nowhere else. It is deterministic (`Executes.unique`), so one
execution is all of them (`Executes.iff_of_executes`). One rule an instruction says what a
step does where the code has the instruction's bytes (`step_push`, `step_dup`,
`step_codecopy`, `step_ret`).
-/

namespace Evm

open Rust

/-- An element of the stack. -/
abbrev Word := BitVec 256

/-- The instructions that are modelled, and the others. -/
inductive Instr where
  | stop
  | codecopy
  | push (size : ℕ) (word : Word)
  | dup (depth : ℕ)
  | ret
  | other (opcode : UInt8)
deriving DecidableEq

/-- The `n` bytes of the code from `p` on, zero beyond its end. -/
def bytesAt (code : Bytes) (p n : ℕ) : Bytes :=
  (code.drop p ++ List.replicate n 0).take n

/-- The instruction at `pc`. Beyond the end of the code it is `STOP`. -/
def decode (code : Bytes) (pc : ℕ) : Instr :=
  match code[pc]? with
  | none => .stop
  | some opcode =>
    let op := opcode.toNat
    if op = 0x00 then .stop
    else if op = 0x39 then .codecopy
    else if 0x60 ≤ op ∧ op ≤ 0x7f then
      .push (op - 0x5f) (BitVec.ofNat 256 (ofBe (bytesAt code (pc + 1) (op - 0x5f))))
    else if 0x80 ≤ op ∧ op ≤ 0x8f then .dup (op - 0x80)
    else if op = 0xf3 then .ret
    else .other opcode

/-- The state between two instructions. -/
structure State where
  pc : ℕ
  stack : List Word
  memory : Memory

/-- The empty stack and zeroed memory. -/
def State.initial : State :=
  ⟨0, [], fun _ => 0⟩

/-- How the machine halts. -/
inductive Halt where
  | returned (data : Bytes)
  | underflow
  | overflow
  | notModelled (opcode : UInt8)
deriving DecidableEq

/-- What follows an instruction. -/
inductive Next where
  | continues (s : State)
  | halts (h : Halt)

/-- `s` with `w` on its stack and `n` more bytes read, if the stack has room. -/
def State.push (s : State) (n : ℕ) (w : Word) : Next :=
  if s.stack.length < 1024 then .continues ⟨s.pc + n, w :: s.stack, s.memory⟩
  else .halts .overflow

/-- What the instruction at the program counter does. -/
def step (code : Bytes) (s : State) : Next :=
  match decode code s.pc, s.stack with
  | .stop, _ => .halts (.returned [])
  | .codecopy, dest :: offset :: size :: stack =>
    .continues ⟨s.pc + 1, stack,
      s.memory.write dest.toNat (bytesAt code offset.toNat size.toNat)⟩
  | .push n w, _ => s.push (1 + n) w
  | .dup n, stack =>
    match stack[n]? with
    | some w => s.push 1 w
    | none => .halts .underflow
  | .ret, offset :: size :: _ => .halts (.returned (s.memory.read offset.toNat size.toNat))
  | .other opcode, _ => .halts (.notModelled opcode)
  | _, _ => .halts .underflow

/-- From `s` the machine halts as `halt`, with the instructions at `pcs` read in order. -/
inductive Executes (code : Bytes) : State → List ℕ → Halt → Prop
  | halt {s : State} {h : Halt} : step code s = .halts h → Executes code s [s.pc] h
  | next {s s' : State} {pcs : List ℕ} {h : Halt} : step code s = .continues s' →
      Executes code s' pcs h → Executes code s (s.pc :: pcs) h

/-- The machine is deterministic. -/
theorem Executes.unique {code : Bytes} {s : State} {pcs pcs' : List ℕ} {h h' : Halt}
    (e : Executes code s pcs h) (e' : Executes code s pcs' h') : pcs = pcs' ∧ h = h' := by
  induction e generalizing pcs' h' with
  | halt hs =>
    rcases e' with hs' | ⟨hs', -⟩
    · rw [hs] at hs'
      exact ⟨rfl, Next.halts.inj hs'⟩
    · rw [hs] at hs'
      cases hs'
  | next hs _ ih =>
    rcases e' with hs' | ⟨hs', he'⟩
    · rw [hs] at hs'
      cases hs'
    · rw [hs] at hs'
      obtain rfl := Next.continues.inj hs'
      obtain ⟨rfl, rfl⟩ := ih he'
      exact ⟨rfl, rfl⟩

theorem Executes.iff_of_executes {code : Bytes} {s : State} {pcs : List ℕ} {h : Halt}
    (e : Executes code s pcs h) (pcs' : List ℕ) (h' : Halt) :
    Executes code s pcs' h' ↔ pcs' = pcs ∧ h' = h := by
  refine ⟨fun e' => e'.unique e, fun heq => ?_⟩
  obtain ⟨rfl, rfl⟩ := heq
  exact e

/-! ## The code at a program counter -/

/-- The code has the bytes `b` from `pc` on. -/
def CodeAt (code : Bytes) (pc : ℕ) (b : Bytes) : Prop :=
  b <+: code.drop pc

theorem codeAt_append (b rest : Bytes) : CodeAt (b ++ rest) 0 b :=
  List.prefix_append b rest

/-- What follows `a` is at the place behind it. -/
theorem CodeAt.skip {code : Bytes} {pc : ℕ} {a b : Bytes} (h : CodeAt code pc (a ++ b)) :
    CodeAt code (pc + a.length) b := by
  obtain ⟨rest, hrest⟩ := h
  have hdrop : code.drop (pc + a.length) = b ++ rest := by
    rw [← List.drop_drop, ← hrest, List.append_assoc]
    exact List.drop_left
  exact ⟨rest, hdrop.symm⟩

theorem CodeAt.getElem? {code : Bytes} {pc : ℕ} {x : UInt8} {b : Bytes}
    (h : CodeAt code pc (x :: b)) : code[pc]? = some x := by
  obtain ⟨rest, hrest⟩ := h
  have hget : (code.drop pc)[0]? = some x := by
    rw [← hrest]
    rfl
  simpa using hget

theorem CodeAt.bytesAt {code : Bytes} {pc : ℕ} {a b : Bytes} (h : CodeAt code pc (a ++ b)) :
    bytesAt code pc a.length = a := by
  obtain ⟨rest, hrest⟩ := h
  rw [Evm.bytesAt, ← hrest, List.append_assoc, List.append_assoc, List.take_left]

/-- All of the code from `a` on. -/
theorem bytesAt_append (a b : Bytes) : bytesAt (a ++ b) a.length b.length = b := by
  rw [bytesAt, List.drop_left, List.take_left]

/-! ## One rule an instruction -/

section Rules

variable {code : Bytes} {s : State}

theorem step_push {op : UInt8} {rest : Bytes} (imm : Bytes)
    (hcode : CodeAt code s.pc (op :: imm ++ rest))
    (himm : 0 < imm.length ∧ imm.length ≤ 32) (hop : op.toNat = 0x5f + imm.length)
    (hroom : s.stack.length < 1024) :
    step code s = .continues ⟨s.pc + (1 + imm.length),
      BitVec.ofNat 256 (ofBe imm) :: s.stack, s.memory⟩ := by
  have hbytes : bytesAt code (s.pc + 1) imm.length = imm :=
    (CodeAt.skip (a := [op]) (b := imm ++ rest) hcode).bytesAt
  have hdecode : decode code s.pc = .push imm.length (BitVec.ofNat 256 (ofBe imm)) := by
    have hn : op.toNat - 0x5f = imm.length := by omega
    simp only [decode, CodeAt.getElem? (b := imm ++ rest) hcode, hn, hbytes]
    rw [if_neg (by omega), if_neg (by omega), if_pos (by omega)]
  simp only [step, hdecode, State.push, if_pos hroom]

theorem step_dup {op : UInt8} {rest : Bytes} {n : ℕ} {w : Word}
    (hcode : CodeAt code s.pc (op :: rest)) (hn : n < 16) (hop : op.toNat = 0x80 + n)
    (hw : s.stack[n]? = some w) (hroom : s.stack.length < 1024) :
    step code s = .continues ⟨s.pc + 1, w :: s.stack, s.memory⟩ := by
  have hdecode : decode code s.pc = .dup n := by
    have hsub : op.toNat - 0x80 = n := by omega
    simp only [decode, hcode.getElem?, hsub]
    rw [if_neg (by omega), if_neg (by omega), if_neg (by omega), if_pos (by omega)]
  simp only [step, hdecode, hw, State.push, if_pos hroom]

theorem step_codecopy {rest : Bytes} {dest offset size : Word} {stack : List Word}
    (hcode : CodeAt code s.pc (0x39 :: rest)) (hs : s.stack = dest :: offset :: size :: stack) :
    step code s = .continues ⟨s.pc + 1, stack,
      s.memory.write dest.toNat (bytesAt code offset.toNat size.toNat)⟩ := by
  have hdecode : decode code s.pc = .codecopy := by
    simp [decode, hcode.getElem?]
  simp only [step, hdecode, hs]

theorem step_ret {rest : Bytes} {offset size : Word} {stack : List Word}
    (hcode : CodeAt code s.pc (0xf3 :: rest)) (hs : s.stack = offset :: size :: stack) :
    step code s = .halts (.returned (s.memory.read offset.toNat size.toNat)) := by
  have hdecode : decode code s.pc = .ret := by
    simp [decode, hcode.getElem?]
  simp only [step, hdecode, hs]

end Rules

end Evm
