import CargoStylus.Rust.Outcome

/-!
# Programs that make requests

A program makes requests, one after the other, and what it does next depends on the
responses. A request may fail. `Runs p log o` says that `p`, with the responses in `log`, has
made the requests there and ended as `o`, so a property of all runs holds whatever the
responses are.

`wp p Q` says that every run of `p` has a log and an outcome that satisfy `Q`
(`wp_iff_runs`), and that of a sequence is that of its parts (`wp_bind`). `Avoids`, `Returns`
and `Stops` are properties that a program has if its parts do : no request is of some kind,
every value is of some kind, and nothing is requested after a response of some kind, which
ends the program without a value.

`answered answer p` is the run in which no request fails. If a failed request always ends the
program, and there is one response to each request, every other run breaks off this one
(`FailFast.requests_prefix`).
-/

namespace Rust.Interaction

/-- A program that makes requests `r : Req`, which fail or are responded to by `Resp r`. -/
inductive Prog (Req : Type) (Resp : Req → Type) (ε α : Type) where
  | done (outcome : Outcome ε α)
  | call (r : Req) (next : Except ε (Resp r) → Prog Req Resp ε α)

/-- Requests with their responses, in order. -/
abbrev Log (Req : Type) (Resp : Req → Type) (ε : Type) := List (Σ r, Except ε (Resp r))

variable {Req : Type} {Resp : Req → Type} {ε α β : Type}

namespace Prog

/-- Run `f` on the value of `p`, if it ends with one. -/
def bind (p : Prog Req Resp ε α) (f : α → Prog Req Resp ε β) : Prog Req Resp ε β :=
  match p with
  | done (.ok a) => f a
  | done (.err e) => done (.err e)
  | done (.panic m) => done (.panic m)
  | call r next => call r fun x => (next x).bind f

instance : Monad (Prog Req Resp ε) where
  pure a := done (.ok a)
  bind := bind

@[simp] theorem pure_eq (a : α) : (pure a : Prog Req Resp ε α) = done (.ok a) :=
  rfl

/-- Make a request, and end with what `f` makes of the response. -/
def askWith (r : Req) (f : Except ε (Resp r) → Outcome ε α) : Prog Req Resp ε α :=
  call r fun x => done (f x)

/-- Make a request, and end with an error if it fails. -/
def ask (r : Req) : Prog Req Resp ε (Resp r) :=
  askWith r Outcome.ofExcept

/-! ## Runs -/

/-- With the responses of `log` the program ends as `o`. -/
inductive Runs : Prog Req Resp ε α → Log Req Resp ε → Outcome ε α → Prop
  | done (o : Outcome ε α) : Runs (done o) [] o
  | call {r : Req} {next : Except ε (Resp r) → Prog Req Resp ε α} (x : Except ε (Resp r))
      {log : Log Req Resp ε} {o : Outcome ε α} : Runs (next x) log o →
      Runs (call r next) (⟨r, x⟩ :: log) o

theorem Runs.bind {p : Prog Req Resp ε α} {f : α → Prog Req Resp ε β} {a : α}
    {log log' : Log Req Resp ε} {o : Outcome ε β} (h : Runs p log (.ok a))
    (hf : Runs (f a) log' o) : Runs (p >>= f) (log ++ log') o := by
  generalize ho : Outcome.ok a = oa at h
  induction h with
  | done o =>
    subst ho
    exact hf
  | call x _ ih => exact .call x (ih ho)

theorem Runs.bind_err {p : Prog Req Resp ε α} {f : α → Prog Req Resp ε β} {e : ε}
    {log : Log Req Resp ε} (h : Runs p log (.err e)) : Runs (p >>= f) log (.err e) := by
  generalize ho : Outcome.err e = oe at h
  induction h with
  | done o =>
    subst ho
    exact .done _
  | call x _ ih => exact .call x (ih ho)

theorem Runs.bind_panic {p : Prog Req Resp ε α} {f : α → Prog Req Resp ε β} {m : String}
    {log : Log Req Resp ε} (h : Runs p log (.panic m)) : Runs (p >>= f) log (.panic m) := by
  generalize ho : Outcome.panic m = om at h
  induction h with
  | done o =>
    subst ho
    exact .done _
  | call x _ ih => exact .call x (ih ho)

theorem Runs.askWith {r : Req} {f : Except ε (Resp r) → Outcome ε α} {x : Except ε (Resp r)}
    {o : Outcome ε α} (h : f x = o) : Runs (askWith r f) [⟨r, x⟩] o :=
  .call x (h ▸ .done _)

/-! ## What every run satisfies -/

/-- Every run of the program ends with a log and an outcome in `Q`. -/
def wp : Prog Req Resp ε α → (Log Req Resp ε → Outcome ε α → Prop) → Prop
  | done o, Q => Q [] o
  | call r next, Q => ∀ x, wp (next x) fun log o => Q (⟨r, x⟩ :: log) o

theorem wp_iff_runs {p : Prog Req Resp ε α} {Q : Log Req Resp ε → Outcome ε α → Prop} :
    wp p Q ↔ ∀ log o, Runs p log o → Q log o := by
  induction p generalizing Q with
  | done o =>
    refine ⟨fun h log o' hrun => ?_, fun h => h [] o (.done o)⟩
    rcases hrun
    exact h
  | call r next ih =>
    refine ⟨fun h log o hrun => ?_, fun h x => ?_⟩
    · rcases hrun with _ | ⟨x, hrun⟩
      exact (ih x).1 (h x) _ _ hrun
    · exact (ih x).2 fun log o hrun => h _ _ (.call x hrun)

theorem wp_mono {p : Prog Req Resp ε α} {Q Q' : Log Req Resp ε → Outcome ε α → Prop}
    (h : wp p Q) (hQ : ∀ log o, Q log o → Q' log o) : wp p Q' :=
  wp_iff_runs.2 fun log o hrun => hQ log o (wp_iff_runs.1 h log o hrun)

theorem wp_and {p : Prog Req Resp ε α} {Q Q' : Log Req Resp ε → Outcome ε α → Prop}
    (h : wp p Q) (h' : wp p Q') : wp p fun log o => Q log o ∧ Q' log o :=
  wp_iff_runs.2 fun log o hrun => ⟨wp_iff_runs.1 h log o hrun, wp_iff_runs.1 h' log o hrun⟩

@[simp] theorem wp_done {o : Outcome ε α} {Q : Log Req Resp ε → Outcome ε α → Prop} :
    wp (done o) Q ↔ Q [] o :=
  Iff.rfl

/-- What a run of `p >>= f` satisfies, after a run of `p` that ended in `log` as `o`. -/
def After (f : α → Prog Req Resp ε β) (Q : Log Req Resp ε → Outcome ε β → Prop)
    (log : Log Req Resp ε) : Outcome ε α → Prop
  | .ok a => wp (f a) fun log' o => Q (log ++ log') o
  | .err e => Q log (.err e)
  | .panic m => Q log (.panic m)

theorem wp_bind {p : Prog Req Resp ε α} {f : α → Prog Req Resp ε β}
    {Q : Log Req Resp ε → Outcome ε β → Prop} : wp (p >>= f) Q ↔ wp p (After f Q) := by
  induction p generalizing Q with
  | done o => cases o <;> rfl
  | call r next ih => exact forall_congr' fun x => ih x

/-- A sequence satisfies what its second part does after the first, and what the first does
if it fails. -/
theorem wp_bind_of {p : Prog Req Resp ε α} {f : α → Prog Req Resp ε β}
    {P : Log Req Resp ε → Outcome ε α → Prop} {Q : Log Req Resp ε → Outcome ε β → Prop}
    (hp : wp p P) (hok : ∀ log a, P log (.ok a) → wp (f a) fun log' o => Q (log ++ log') o)
    (herr : ∀ log e, P log (.err e) → Q log (.err e))
    (hpanic : ∀ log m, P log (.panic m) → Q log (.panic m)) : wp (p >>= f) Q := by
  refine wp_bind.2 (wp_mono hp fun log o h => ?_)
  rcases o with a | e | m
  · exact hok log a h
  · exact herr log e h
  · exact hpanic log m h

/-- A part that makes no request comes first. -/
theorem wp_done_bind {o : Outcome ε α} {f : α → Prog Req Resp ε β} {Q : Log Req Resp ε → Prop}
    (hnil : Q []) (hf : ∀ a, o = .ok a → wp (f a) fun log _ => Q log) :
    wp (done o >>= f) fun log _ => Q log := by
  rcases o with a | e | m
  · exact hf a rfl
  · exact hnil
  · exact hnil

/-! ## No request of some kind -/

/-- No request of a run is in `P`. -/
def Avoids (P : Req → Prop) (p : Prog Req Resp ε α) : Prop :=
  wp p fun log _ => ∀ entry ∈ log, ¬P entry.1

variable {P : Req → Prop}

theorem avoids_done (o : Outcome ε α) : Avoids P (done o : Prog Req Resp ε α) := by
  rintro entry ⟨⟩

theorem avoids_askWith {r : Req} (hr : ¬P r) (f : Except ε (Resp r) → Outcome ε α) :
    Avoids P (askWith r f) := by
  intro x entry hentry
  rwa [List.mem_singleton.1 hentry]

theorem avoids_ask {r : Req} (hr : ¬P r) : Avoids P (ask r : Prog Req Resp ε (Resp r)) :=
  avoids_askWith hr _

/-! ## What a program returns -/

/-- Every value that a run returns satisfies `R`. -/
def Returns (R : α → Prop) (p : Prog Req Resp ε α) : Prop :=
  wp p fun _ o => ∀ a, o = .ok a → R a

theorem returns_done {o : Outcome ε α} : Returns (fun a => o = .ok a)
    (done o : Prog Req Resp ε α) :=
  fun _ ho => ho

theorem Returns.bind {p : Prog Req Resp ε α} {f : α → Prog Req Resp ε β} {R : α → Prop}
    {S : β → Prop} (hp : Returns R p) (hf : ∀ a, R a → Returns S (f a)) :
    Returns S (p >>= f) :=
  wp_bind_of hp (fun _ a ha => hf a (ha a rfl)) (fun _ _ _ => nofun) (fun _ _ _ => nofun)

/-- Nothing more is known of the values than what they are used for. -/
theorem Returns.bind_of_forall {p : Prog Req Resp ε α} {f : α → Prog Req Resp ε β}
    {S : β → Prop} (hf : ∀ a, Returns S (f a)) : Returns S (p >>= f) :=
  .bind (R := fun _ => True) (wp_iff_runs.2 fun _ _ _ _ _ => trivial) fun a _ => hf a

/-- What follows a program may use what it returns. -/
theorem Avoids.bind_of_returns {p : Prog Req Resp ε α} {f : α → Prog Req Resp ε β}
    {R : α → Prop} (hp : Avoids P p) (hR : Returns R p) (hf : ∀ a, R a → Avoids P (f a)) :
    Avoids P (p >>= f) := by
  refine wp_bind_of (wp_and hp hR) (fun log a h => ?_) (fun _ _ h => h.1) (fun _ _ h => h.1)
  refine wp_mono (hf a (h.2 a rfl)) fun log' o hlog' entry hentry => ?_
  rcases List.mem_append.1 hentry with hentry | hentry
  · exact h.1 entry hentry
  · exact hlog' entry hentry

theorem Avoids.bind {p : Prog Req Resp ε α} {f : α → Prog Req Resp ε β} (hp : Avoids P p)
    (hf : ∀ a, Avoids P (f a)) : Avoids P (p >>= f) :=
  hp.bind_of_returns (R := fun _ => True) (wp_mono hp fun _ _ _ _ _ => trivial) fun a _ => hf a

/-! ## What is returned after which responses -/

/-- No request of a run is in `P`, and a value that is returned is in `R`, as the responses
were. -/
def Yields (P : Req → Prop) (R : Log Req Resp ε → α → Prop) (p : Prog Req Resp ε α) : Prop :=
  wp p fun log o => (∀ entry ∈ log, ¬P entry.1) ∧ ∀ a, o = .ok a → R log a

theorem yields_done {R : Log Req Resp ε → α → Prop} {o : Outcome ε α}
    (h : ∀ a, o = .ok a → R [] a) : Yields P R (done o) :=
  ⟨nofun, h⟩

theorem yields_err {R : Log Req Resp ε → α → Prop} (e : ε) : Yields P R (done (.err e)) :=
  yields_done nofun

theorem yields_askWith {r : Req} (hr : ¬P r) (f : Except ε (Resp r) → Outcome ε α) :
    Yields P (fun log a => ∃ x, log = [⟨r, x⟩] ∧ f x = .ok a) (askWith r f) :=
  fun x => ⟨avoids_askWith hr f x, fun _ ha => ⟨x, rfl, ha⟩⟩

/-- What follows may rely on what was returned. -/
theorem Yields.wp_bind {p : Prog Req Resp ε α} {f : α → Prog Req Resp ε β}
    {R : Log Req Resp ε → α → Prop} {Q : Log Req Resp ε → Outcome ε β → Prop} (hp : Yields P R p)
    (hf : ∀ log a, (∀ entry ∈ log, ¬P entry.1) → R log a → wp (f a) fun log' o => Q (log ++ log') o)
    (hnothing : ∀ log o, (∀ entry ∈ log, ¬P entry.1) → ¬o.IsOk → Q log o) : wp (p >>= f) Q :=
  wp_bind_of hp (fun log a h => hf log a h.1 (h.2 a rfl))
    (fun log e h => hnothing log _ h.1 (Outcome.not_isOk_err e))
    (fun log m h => hnothing log _ h.1 (Outcome.not_isOk_panic m))

theorem Yields.bind {p : Prog Req Resp ε α} {f : α → Prog Req Resp ε β}
    {R : Log Req Resp ε → α → Prop} {S : Log Req Resp ε → β → Prop} (hp : Yields P R p)
    (hf : ∀ log a, R log a → Yields P (fun log' b => S (log ++ log') b) (f a)) :
    Yields P S (p >>= f) := by
  refine hp.wp_bind (fun log a hlog ha => ?_) fun log o hlog ho =>
    ⟨hlog, fun b hb => absurd ⟨b, hb⟩ ho⟩
  refine wp_mono (hf log a ha) fun log' o h => ⟨fun entry hentry => ?_, h.2⟩
  exact (List.mem_append.1 hentry).elim (hlog entry) (h.1 entry)

/-! ## Nothing is requested after a response of some kind -/

/-- In `log` nothing follows an entry in `B`, and with one the outcome is no value. -/
def StopsAt (B : (Σ r, Except ε (Resp r)) → Prop) (log : Log Req Resp ε) (o : Outcome ε α) :
    Prop :=
  ∀ before entry after, log = before ++ entry :: after → B entry → after = [] ∧ ¬o.IsOk

/-- Nothing follows an entry in `B` in any run. -/
def Stops (B : (Σ r, Except ε (Resp r)) → Prop) (p : Prog Req Resp ε α) : Prop :=
  wp p (StopsAt B)

variable {B : (Σ r, Except ε (Resp r)) → Prop}

@[simp] theorem stopsAt_nil (o : Outcome ε α) : StopsAt B [] o := by
  intro before entry after h
  simp at h

@[simp] theorem stopsAt_cons {entry : Σ r, Except ε (Resp r)} {log : Log Req Resp ε}
    {o : Outcome ε α} :
    StopsAt B (entry :: log) o ↔ (B entry → log = [] ∧ ¬o.IsOk) ∧ StopsAt B log o := by
  refine ⟨fun h => ⟨h [] entry log rfl, fun before e after hlog =>
    h (entry :: before) e after (congrArg _ hlog)⟩, fun h before e after hlog hB => ?_⟩
  rcases before with _ | ⟨first, before⟩
  · obtain ⟨rfl, rfl⟩ := List.cons.inj hlog
    exact h.1 hB
  · exact h.2 before e after (List.cons.inj hlog).2 hB

theorem stops_done (o : Outcome ε α) : Stops B (done o : Prog Req Resp ε α) :=
  stopsAt_nil o

theorem stops_askWith {r : Req} {f : Except ε (Resp r) → Outcome ε α}
    (h : ∀ x, B ⟨r, x⟩ → ¬(f x).IsOk) : Stops B (askWith r f) :=
  fun x => stopsAt_cons.2 ⟨fun hB => ⟨rfl, h x hB⟩, stopsAt_nil _⟩

theorem stops_ask {r : Req} (h : ∀ x, ¬B ⟨r, .ok x⟩) :
    Stops B (ask r : Prog Req Resp ε (Resp r)) := by
  refine stops_askWith fun x hx => ?_
  rcases x with e | x
  · exact Outcome.not_isOk_err e
  · exact absurd hx (h x)

theorem Stops.bind {p : Prog Req Resp ε α} {f : α → Prog Req Resp ε β} (hp : Stops B p)
    (hf : ∀ a, Stops B (f a)) : Stops B (p >>= f) := by
  refine wp_bind_of hp (fun log a hlog => ?_)
    (fun _ _ h before entry after heq hB => ⟨(h before entry after heq hB).1, by simp⟩)
    (fun _ _ h before entry after heq hB => ⟨(h before entry after heq hB).1, by simp⟩)
  refine wp_mono (hf a) fun log' o hlog' before entry after heq hB => ?_
  rcases List.append_eq_append_iff.1 heq with ⟨mid, rfl, hmid⟩ | ⟨mid, hmid, hrest⟩
  · exact hlog' mid entry after hmid hB
  · rcases mid with _ | ⟨first, mid⟩
    · exact hlog' [] entry after hrest.symm hB
    · obtain ⟨rfl, -⟩ := List.cons.inj hrest
      exact absurd ⟨a, rfl⟩ (hlog before entry mid hmid hB).2

/-! ## The run without failures -/

/-- The requests and the outcome if each request `r` is responded to by `answer r`. -/
def answered (answer : ∀ r, Resp r) : Prog Req Resp ε α → List Req × Outcome ε α
  | done o => ([], o)
  | call r next =>
    let run := answered answer (next (.ok (answer r)))
    (r :: run.1, run.2)

variable {answer : ∀ r, Resp r}

@[simp] theorem answered_done (o : Outcome ε α) :
    answered answer (done o : Prog Req Resp ε α) = ([], o) :=
  rfl

@[simp] theorem answered_ask_bind (r : Req) (f : Resp r → Prog Req Resp ε α) :
    answered answer (ask r >>= f) =
      (r :: (answered answer (f (answer r))).1, (answered answer (f (answer r))).2) :=
  rfl

theorem runs_answered (answer : ∀ r, Resp r) (p : Prog Req Resp ε α) :
    Runs p ((answered answer p).1.map fun r => ⟨r, .ok (answer r)⟩) (answered answer p).2 := by
  induction p with
  | done o => exact .done o
  | call r next ih => exact .call _ (ih _)

theorem answered_bind_ok {p : Prog Req Resp ε α} {f : α → Prog Req Resp ε β} {a : α}
    {rs rs' : List Req} {o : Outcome ε β} (h : answered answer p = (rs, .ok a))
    (hf : answered answer (f a) = (rs', o)) : answered answer (p >>= f) = (rs ++ rs', o) := by
  induction p generalizing rs with
  | done oa =>
    obtain ⟨rfl, rfl⟩ := Prod.mk.inj h
    exact hf
  | call r next ih =>
    obtain ⟨rfl, ho⟩ := Prod.mk.inj h
    have hrest := ih (.ok (answer r)) (Prod.ext rfl ho)
    exact congrArg (fun run : List Req × Outcome ε β => (r :: run.1, run.2)) hrest

theorem answered_bind_err {p : Prog Req Resp ε α} {f : α → Prog Req Resp ε β} {e : ε}
    {rs : List Req} (h : answered answer p = (rs, .err e)) :
    answered answer (p >>= f) = (rs, .err e) := by
  induction p generalizing rs with
  | done o =>
    obtain ⟨rfl, rfl⟩ := Prod.mk.inj h
    rfl
  | call r next ih =>
    obtain ⟨rfl, ho⟩ := Prod.mk.inj h
    have hrest := ih (.ok (answer r)) (Prod.ext rfl ho)
    exact congrArg (fun run : List Req × Outcome ε β => (r :: run.1, run.2)) hrest

/-- What follows without requests makes none. -/
theorem requests_bind_done (p : Prog Req Resp ε α) (f : α → Outcome ε β) :
    (answered answer (p >>= fun a => done (f a))).1 = (answered answer p).1 := by
  induction p with
  | done o => cases o <;> rfl
  | call r next ih => exact congrArg (r :: ·) (ih (.ok (answer r)))

/-- A failed request ends the program with an error. -/
def FailFast : Prog Req Resp ε α → Prop
  | done _ => True
  | call _ next => (∀ e, ∃ e', next (.error e) = done (.err e')) ∧ ∀ x, FailFast (next (.ok x))

theorem failFast_done (o : Outcome ε α) : FailFast (done o : Prog Req Resp ε α) :=
  trivial

theorem failFast_ask (r : Req) : FailFast (ask r : Prog Req Resp ε (Resp r)) :=
  ⟨fun e => ⟨e, rfl⟩, fun _ => trivial⟩

theorem FailFast.bind {p : Prog Req Resp ε α} {f : α → Prog Req Resp ε β} (hp : FailFast p)
    (hf : ∀ a, FailFast (f a)) : FailFast (p >>= f) := by
  induction p with
  | done o =>
    rcases o with a | e | m
    · exact hf a
    · trivial
    · trivial
  | call r next ih =>
    refine ⟨fun e => ?_, fun x => ih _ (hp.2 x)⟩
    obtain ⟨e', he'⟩ := hp.1 e
    exact ⟨e', congrArg (fun p : Prog Req Resp ε α => p.bind f) he'⟩

/-- A run makes the requests of the run without failures, up to one that fails. -/
theorem FailFast.requests_prefix [∀ r, Subsingleton (Resp r)] {p : Prog Req Resp ε α}
    (hp : FailFast p) {log : Log Req Resp ε} {o : Outcome ε α} (h : Runs p log o) :
    log.map Sigma.fst <+: (answered answer p).1 ∧
      ((∀ entry ∈ log, ∃ x, entry.2 = .ok x) ∨ o.IsOk →
        log.map Sigma.fst = (answered answer p).1 ∧ o = (answered answer p).2) := by
  induction h with
  | done o => exact ⟨List.nil_prefix, fun _ => ⟨rfl, rfl⟩⟩
  | @call r next x log o hrun ih =>
    rcases x with e | x
    · obtain ⟨e', he'⟩ := hp.1 e
      rw [he'] at hrun
      cases hrun
      refine ⟨⟨_, rfl⟩, fun hgood => ?_⟩
      rcases hgood with hall | hok
      · obtain ⟨x, hx⟩ := hall _ List.mem_cons_self
        cases hx
      · exact absurd hok (Outcome.not_isOk_err e')
    · obtain rfl := Subsingleton.elim x (answer r)
      obtain ⟨hstart, hwhole⟩ := ih (hp.2 _)
      refine ⟨List.cons_prefix_cons.2 ⟨rfl, hstart⟩, fun hgood => ?_⟩
      obtain ⟨hlog, ho⟩ := hwhole (hgood.imp_left fun hall entry hentry =>
        hall entry (List.mem_cons_of_mem _ hentry))
      exact ⟨congrArg (r :: ·) hlog, ho⟩

end Prog

end Rust.Interaction
