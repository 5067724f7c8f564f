import CargoStylus.Rust.Interaction

/-!
# Programs behind a wider interface

A program that makes requests of one kind runs where there are requests of more kinds
(`Prog.embed`). Its runs there are its runs, with the log read back (`wp_embed`). An error of a
program can be caught (`Prog.attempt`), and then the run goes on with what it ended as.
-/

namespace Rust.Interaction

variable {Req Req' : Type} {Resp : Req → Type} {Resp' : Req' → Type} {ε α β : Type}

/-- Each request of one interface is one of another, whose response says at least as much. -/
structure Embedding (Req : Type) (Resp : Req → Type) (Req' : Type) (Resp' : Req' → Type) where
  request : Req → Req'
  response : ∀ r, Resp' (request r) → Resp r

/-- The entry of the wider interface, read back. -/
def Embedding.entry (e : Embedding Req Resp Req' Resp') (r : Req)
    (x : Except ε (Resp' (e.request r))) : Σ r, Except ε (Resp r) :=
  ⟨r, x.map (e.response r)⟩

/-- The first log is the second one, in the wider interface. -/
inductive Embedding.Carries (e : Embedding Req Resp Req' Resp') :
    Log Req' Resp' ε → Log Req Resp ε → Prop
  | nil : Carries e [] []
  | cons {r : Req} (x : Except ε (Resp' (e.request r))) {log' : Log Req' Resp' ε}
      {log : Log Req Resp ε} (h : Carries e log' log) :
      Carries e (⟨e.request r, x⟩ :: log') (e.entry r x :: log)

namespace Prog

/-- The program with each request as the one it stands for. -/
def embed (e : Embedding Req Resp Req' Resp') : Prog Req Resp ε α → Prog Req' Resp' ε α
  | done o => done o
  | call r next => call (e.request r) fun x => (next (x.map (e.response r))).embed e

variable {e : Embedding Req Resp Req' Resp'}

theorem wp_embed {p : Prog Req Resp ε α} {Q : Log Req' Resp' ε → Outcome ε α → Prop}
    (h : wp p fun log o => ∀ log', e.Carries log' log → Q log' o) : wp (p.embed e) Q := by
  induction p generalizing Q with
  | done o => exact h [] .nil
  | call r next ih =>
    intro x
    refine ih _ (wp_mono (h _) fun log o hlog log' hcarries => ?_)
    exact hlog _ (.cons x hcarries)

theorem avoids_of_carries {P : Req' → Prop} {log' : Log Req' Resp' ε} {log : Log Req Resp ε}
    (h : e.Carries log' log) (hlog : ∀ entry ∈ log, ¬P (e.request entry.1)) :
    ∀ entry ∈ log', ¬P entry.1 := by
  induction h with
  | nil => exact List.forall_mem_nil _
  | cons x _ ih =>
    obtain ⟨hr, hlog⟩ := List.forall_mem_cons.1 hlog
    exact List.forall_mem_cons.2 ⟨hr, ih hlog⟩

theorem avoids_embed {p : Prog Req Resp ε α} {P : Req' → Prop}
    (h : Avoids (fun r => P (e.request r)) p) : Avoids P (p.embed e) :=
  wp_embed (wp_mono h fun _ _ hlog _ hcarries => avoids_of_carries hcarries hlog)

/-- If every response is that of a wider one, a run is one in the wider interface. -/
theorem Runs.embed {p : Prog Req Resp ε α} {log : Log Req Resp ε} {o : Outcome ε α}
    (h : Runs p log o) (hsurj : ∀ r, Function.Surjective (e.response r)) :
    ∃ log', e.Carries log' log ∧ Runs (p.embed e) log' o := by
  induction h with
  | done o => exact ⟨[], .nil, .done o⟩
  | @call r next x log o _ ih =>
    obtain ⟨log', hcarries, hrun⟩ := ih
    obtain ⟨y, rfl⟩ : ∃ y : Except ε (Resp' (e.request r)), y.map (e.response r) = x := by
      rcases x with err | x
      · exact ⟨.error err, rfl⟩
      · obtain ⟨y, rfl⟩ := hsurj r x
        exact ⟨.ok y, rfl⟩
    exact ⟨_, .cons y hcarries, .call y hrun⟩

theorem embed_bind (p : Prog Req Resp ε α) (f : α → Prog Req Resp ε β) :
    (p >>= f).embed e = p.embed e >>= fun a => (f a).embed e := by
  induction p with
  | done o => cases o <;> rfl
  | call r next ih => exact congrArg (call (e.request r)) (funext fun x => ih _)

/-! ## Catching errors -/

/-- What a program ended as, where errors are caught. -/
def attempted : Outcome ε α → Outcome ε (Except ε α)
  | .ok a => .ok (.ok a)
  | .err e => .ok (.error e)
  | .panic m => .panic m

/-- Run the program to its end. Panics are not caught. -/
def attempt : Prog Req Resp ε α → Prog Req Resp ε (Except ε α)
  | done o => done (attempted o)
  | call r next => call r fun x => (next x).attempt

theorem wp_attempt {p : Prog Req Resp ε α} {Q : Log Req Resp ε → Outcome ε (Except ε α) → Prop} :
    wp p.attempt Q ↔ wp p fun log o => Q log (attempted o) := by
  induction p generalizing Q with
  | done o => rfl
  | call r next ih => exact forall_congr' fun x => ih x

theorem Runs.attempt {p : Prog Req Resp ε α} {log : Log Req Resp ε} {o : Outcome ε α}
    (h : Runs p log o) : Runs p.attempt log (attempted o) := by
  induction h with
  | done o => exact .done _
  | call x _ ih => exact .call x ih

/-- What follows a program that is run to its end. -/
theorem wp_attempt_bind {p : Prog Req Resp ε α} {f : Except ε α → Prog Req Resp ε β}
    {P : Log Req Resp ε → Outcome ε α → Prop} {Q : Log Req Resp ε → Outcome ε β → Prop}
    (hp : wp p P)
    (hf : ∀ log result, P log (.ofExcept result) →
      wp (f result) fun log' o => Q (log ++ log') o)
    (hpanic : ∀ log m, P log (.panic m) → Q log (.panic m)) : wp (p.attempt >>= f) Q := by
  refine wp_bind.2 (wp_attempt.2 (wp_mono hp fun log o h => ?_))
  rcases o with a | e | m
  · exact hf log (.ok a) h
  · exact hf log (.error e) h
  · exact hpanic log m h

end Prog

end Rust.Interaction
