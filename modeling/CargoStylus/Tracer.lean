import CargoStylus.Js
import CargoStylus.Trace

/-!
# The tracer

The tracer a node runs over a transaction. It keeps the array of the frame being traced
(`openRef`, `this.open` in the source), and the arrays of the frames around it on a stack.
Entering a frame pushes a record onto the open array and opens the array of the record's
steps, leaving it goes back, and a host I/O pushes its record. A host I/O that made a call
first takes back the record of the frame it entered and merges it into its own.

A handler is `none` where it throws.
-/

namespace CargoStylus

open Rust

/-- What the node reports of a host I/O. -/
structure HostioInfo where
  name : String
  args : Bytes
  outs : Bytes
  startInk : U64
  endInk : U64

/-- What the node reports of a frame : `getType` and `getTo`. -/
structure CallFrame where
  getType : String
  getTo : Address

/-- What the node calls the tracer for. -/
inductive Event where
  | hostio (info : HostioInfo)
  | enter (frame : CallFrame)
  | exit

/-- `nests` : the host I/Os that enter a frame. -/
def nests : List String :=
  ["call_contract", "delegate_call_contract", "static_call_contract"]

/-- The record of a host I/O. -/
def HostioInfo.object (info : HostioInfo) : Js.Object :=
  [("name", .string info.name), ("args", .string (toHex info.args)),
    ("outs", .string (toHex info.outs)), ("startInk", .number info.startInk),
    ("endInk", .number info.endInk)]

/-- The name of the record of a frame, by the frame's type. -/
def frameName : String → String
  | "CALL" => "evm_call_contract"
  | "DELEGATECALL" => "evm_delegate_call_contract"
  | "STATICCALL" => "evm_static_call_contract"
  | "CREATE" => "evm_create1"
  | "CREATE2" => "evm_create2"
  | "SELFDESTRUCT" => "evm_self_destruct"
  | _ => ""

/-- The record of a frame whose steps are the array `inner`. -/
def CallFrame.object (frame : CallFrame) (inner : ℕ) : Js.Object :=
  [("address", .string (toHex frame.getTo.1)), ("steps", .array inner),
    ("name", .string (frameName frame.getType))]

/-- The state of the script : its arrays, the stack of those that are open, and the open one. -/
structure Tracer where
  heap : Js.Heap
  stack : List ℕ
  openRef : Option ℕ

namespace Tracer

/-- The tracer before the first event : one array, which is open. -/
def init : Tracer :=
  ⟨[[]], [], some 0⟩

/-- `name.substring(4)` -/
def substring4 (name : String) : String :=
  String.ofList (name.toList.drop 4)

/-- `hostio` : a record is pushed, and one that nests takes over the frame before it. -/
def hostio (t : Tracer) (info : HostioInfo) : Option Tracer := do
  let r ← t.openRef
  if info.name ∈ nests then
    let objects ← t.heap[r]?
    -- `Object.assign` adds nothing where the open array is empty
    let object := info.object.assign (objects.getLast?.getD [])
    match object.get? "name" with
    | some (.string name) =>
      -- remove evm_
      let object := object.set "name" (.string (substring4 name))
      return { t with heap := (t.heap.pop r).push r object }
    | _ => none
  else
    return { t with heap := t.heap.push r info.object }

/-- `enter` : the record of a new frame is pushed, and its steps are open. -/
def enter (t : Tracer) (frame : CallFrame) : Option Tracer := do
  let inner := t.heap.length
  let r ← t.openRef
  return ⟨t.heap.alloc.push r (frame.object inner), r :: t.stack, some inner⟩

/-- Popping the empty stack gives `undefined`. -/
def exit (t : Tracer) : Tracer :=
  { t with stack := t.stack.tail, openRef := t.stack.head? }

/-- What the tracer does for an event. -/
def step (t : Tracer) : Event → Option Tracer
  | .hostio info => t.hostio info
  | .enter frame => t.enter frame
  | .exit => some t.exit

/-- The tracer after some events. -/
def run (t : Tracer) (events : List Event) : Option Tracer :=
  events.foldlM step t

/-- `result` and `fault`, as JSON. An array is only pushed into arrays made before it, so
none is nested deeper than the number of arrays. -/
def result (t : Tracer) : Option Json.Value := do
  t.heap.json t.heap.length (.array (← t.openRef))

@[simp] theorem run_cons (t : Tracer) (e : Event) (es : List Event) :
    t.run (e :: es) = (t.step e).bind (·.run es) :=
  rfl

theorem run_append (t : Tracer) (es es' : List Event) :
    t.run (es ++ es') = (t.run es).bind (·.run es') := by
  simp [run, List.foldlM_append]

theorem hostio_of_not_nests {t : Tracer} {info : HostioInfo} {r : ℕ}
    (hinfo : info.name ∉ nests) (hr : t.openRef = some r) :
    t.hostio info = some { t with heap := t.heap.push r info.object } := by
  simp [hostio, hinfo, hr]

theorem enter_eq {t : Tracer} {r : ℕ} (frame : CallFrame) (hr : t.openRef = some r) :
    t.enter frame = some ⟨t.heap.alloc.push r (frame.object t.heap.length), r :: t.stack,
      some t.heap.length⟩ := by
  simp [enter, hr]

end Tracer

end CargoStylus
