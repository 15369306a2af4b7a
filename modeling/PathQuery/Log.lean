/-!
# Logged computations

A computation that leaves notes on the way to its result. The notes survive a failure: what was
noted before it stays. Results compose as if there were no notes, so a statement about results never
has to look at them.
-/

namespace PathQuery

/-- How much a note matters, from most to least. -/
inductive Level where
  | error
  | warn
  | info
  | debug
  | trace
  deriving DecidableEq, Repr

namespace Level

def name : Level → String
  | error => "ERROR"
  | warn => "WARN"
  | info => "INFO"
  | debug => "DEBUG"
  | trace => "TRACE"

def rank : Level → Nat
  | error => 0
  | warn => 1
  | info => 2
  | debug => 3
  | trace => 4

/-- Whether a note of this level is shown when everything down to `threshold` is. -/
def shownAt (level threshold : Level) : Bool := level.rank ≤ threshold.rank

end Level

/-- Notes in order, and a result or the failure that ended the computation. -/
structure Logged (ν ε α : Type) where
  notes : List ν
  result : Except ε α

namespace Logged

variable {ν ε α β : Type}

def note (n : ν) : Logged ν ε Unit := ⟨[n], .ok ()⟩

def noteAll (ns : List ν) : Logged ν ε Unit := ⟨ns, .ok ()⟩

def fail (e : ε) : Logged ν ε α := ⟨[], .error e⟩

def ofExcept (result : Except ε α) : Logged ν ε α := ⟨[], result⟩

instance : Monad (Logged ν ε) where
  pure a := ⟨[], .ok a⟩
  bind x f :=
    match x.result with
    | .error e => ⟨x.notes, .error e⟩
    | .ok a => ⟨x.notes ++ (f a).notes, (f a).result⟩

@[simp] theorem result_pure (a : α) : (pure a : Logged ν ε α).result = .ok a := rfl

@[simp] theorem result_note (n : ν) : (note n : Logged ν ε Unit).result = .ok () := rfl

@[simp] theorem result_noteAll (ns : List ν) : (noteAll ns : Logged ν ε Unit).result = .ok () := rfl

@[simp] theorem result_fail (e : ε) : (fail e : Logged ν ε α).result = .error e := rfl

@[simp] theorem result_ofExcept (r : Except ε α) : (ofExcept r : Logged ν ε α).result = r := rfl

@[simp] theorem result_bind (x : Logged ν ε α) (f : α → Logged ν ε β) :
    (x >>= f).result = x.result.bind fun a => (f a).result := by
  obtain ⟨notes, _ | a⟩ := x <;> rfl

@[simp] theorem ofExcept_ok_bind (a : α) (f : α → Logged ν ε β) :
    (ofExcept (.ok a) : Logged ν ε α) >>= f = f a := rfl

theorem result_bind_eq_ok_iff {x : Logged ν ε α} {f : α → Logged ν ε β} {b : β} :
    (x >>= f).result = .ok b ↔ ∃ a, x.result = .ok a ∧ (f a).result = .ok b := by
  rw [result_bind]
  cases x.result <;> simp [Except.bind]

theorem result_bind_eq_error_iff {x : Logged ν ε α} {f : α → Logged ν ε β} {e : ε} :
    (x >>= f).result = .error e ↔
      x.result = .error e ∨ ∃ a, x.result = .ok a ∧ (f a).result = .error e := by
  rw [result_bind]
  cases x.result <;> simp [Except.bind]

theorem result_bind_of_ok {x : Logged ν ε α} {a : α} (h : x.result = .ok a)
    (f : α → Logged ν ε β) : (x >>= f).result = (f a).result := by
  rw [result_bind, h]
  rfl

end Logged

end PathQuery
