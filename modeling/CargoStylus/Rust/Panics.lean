import CargoStylus.Rust.Embedding

/-!
# Panics of programs that make requests

A program without panics (`NoPanic`) is made of parts without panics. A program may panic only in
some cases, and before it makes a request of some kind (`PanicsOnly`) : then so does one that does
something else before.
-/

namespace Rust.Interaction.Prog

variable {Req Req' : Type} {Resp : Req → Type} {Resp' : Req' → Type} {ε α β : Type}

/-- No run panics. -/
def NoPanic (p : Prog Req Resp ε α) : Prop :=
  wp p fun _ o => ¬o.IsPanic

theorem noPanic_done {o : Outcome ε α} (h : ¬o.IsPanic) :
    NoPanic (done o : Prog Req Resp ε α) :=
  h

theorem noPanic_askWith {r : Req} {f : Except ε (Resp r) → Outcome ε α}
    (h : ∀ x, ¬(f x).IsPanic) : NoPanic (askWith r f) :=
  h

theorem noPanic_ask (r : Req) : NoPanic (ask r : Prog Req Resp ε (Resp r)) :=
  noPanic_askWith Outcome.not_isPanic_ofExcept

theorem NoPanic.bind {p : Prog Req Resp ε α} {f : α → Prog Req Resp ε β} (hp : NoPanic p)
    (hf : ∀ a, NoPanic (f a)) : NoPanic (p >>= f) :=
  wp_bind_of hp (fun _ a _ => hf a) (fun _ e _ => Outcome.not_isPanic_err e)
    (fun _ m h => absurd (Outcome.isPanic_panic m) h)

theorem NoPanic.embed {e : Embedding Req Resp Req' Resp'} {p : Prog Req Resp ε α}
    (h : NoPanic p) : NoPanic (p.embed e) :=
  wp_embed (wp_mono h fun _ _ ho _ _ => ho)

/-- A run that panics has made no request in `P`, and it does so in `C`. -/
def PanicsOnly (P : Req → Prop) (C : Log Req Resp ε → Prop) (p : Prog Req Resp ε α) : Prop :=
  wp p fun log o => o.IsPanic → (∀ entry ∈ log, ¬P entry.1) ∧ C log

variable {P : Req → Prop} {C : Log Req Resp ε → Prop}

theorem NoPanic.panicsOnly {p : Prog Req Resp ε α} (h : NoPanic p) : PanicsOnly P C p :=
  wp_mono h fun _ _ ho hpanic => absurd hpanic ho

theorem panicsOnly_done {o : Outcome ε α} (h : o.IsPanic → C []) :
    PanicsOnly P C (done o) :=
  fun hpanic => ⟨List.forall_mem_nil _, h hpanic⟩

/-- A cause that does not depend on the requests stays the cause behind a wider interface. -/
theorem PanicsOnly.embed {e : Embedding Req Resp Req' Resp'} {P' : Req' → Prop} {K : Prop}
    {p : Prog Req Resp ε α} (h : PanicsOnly (fun r => P' (e.request r)) (fun _ => K) p) :
    PanicsOnly P' (fun _ => K) (p.embed e) :=
  wp_embed (wp_mono h fun _ _ h _ hcarries hpanic =>
    ⟨avoids_of_carries hcarries (h hpanic).1, (h hpanic).2⟩)

/-- What is done before does not matter, if it makes no request in `P`. -/
theorem PanicsOnly.bind {p : Prog Req Resp ε α} {f : α → Prog Req Resp ε β}
    (hC : ∀ log log', C log' → C (log ++ log')) (hp : PanicsOnly P C p) (havoids : Avoids P p)
    (hf : ∀ a, PanicsOnly P C (f a)) : PanicsOnly P C (p >>= f) := by
  refine wp_bind_of (wp_and hp havoids) (fun log a h => ?_)
    (fun log e _ hpanic => absurd hpanic (Outcome.not_isPanic_err e))
    (fun log m h _ => h.1 (Outcome.isPanic_panic m))
  refine wp_mono (hf a) fun log' o h' hpanic => ⟨?_, hC log log' (h' hpanic).2⟩
  exact List.forall_mem_append.2 ⟨h.2, (h' hpanic).1⟩

/-- A part without panics, and without requests in `P`, comes first. -/
theorem PanicsOnly.bind_of_noPanic {p : Prog Req Resp ε α} {f : α → Prog Req Resp ε β}
    (hC : ∀ log log', C log' → C (log ++ log')) (hp : NoPanic p) (havoids : Avoids P p)
    (hf : ∀ a, PanicsOnly P C (f a)) : PanicsOnly P C (p >>= f) :=
  hp.panicsOnly.bind hC havoids hf

/-- A part without requests comes first. -/
theorem PanicsOnly.done_bind {o : Outcome ε α} {f : α → Prog Req Resp ε β}
    (hC : ∀ log log', C log' → C (log ++ log')) (ho : o.IsPanic → C [])
    (hf : ∀ a, PanicsOnly P C (f a)) : PanicsOnly P C (done o >>= f) :=
  (panicsOnly_done ho).bind hC (avoids_done o) hf

end Rust.Interaction.Prog
