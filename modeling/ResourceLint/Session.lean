import ResourceLint.Scope

/-!
# Sessions

Everything that inferences made one after the other remember: the scopes of the modules seen so
far, the modules whose scope cannot be built, and how many names have been drawn for types
written in place. `InferM` is an inference within a session. It may fail, and then the session
still keeps what was learned on the way; it may also be unfinished, when it would have to look
deeper than it is allowed to, and then it has no outcome at all.
-/

namespace ResourceLint

structure Session where
  scopes : Table Scope
  failed : Table InferError
  drawn : Nat
  deriving Inhabited

namespace Session

def new : Session :=
  ⟨∅, ∅, 0⟩

def hasScope (s : Session) (id : String) : Bool :=
  s.scopes.contains id

/-- The scope of a module, built at its first use. A scope that could not be built is never
tried again. -/
def enter (s : Session) (p : Program) (id : String) : Except InferError Scope × Session :=
  match s.failed.find? id with
  | some e => (.error e, s)
  | none =>
      match s.scopes.find? id with
      | some scope => (.ok scope, s)
      | none =>
          match p.module? id with
          | none => (.error (.unknownModule id), s)
          | some m =>
              match Scope.ofModule m with
              | .ok scope => (.ok scope, { s with scopes := s.scopes.insert id scope })
              | .error e => (.error e, { s with failed := s.failed.insert id e })

/-- Change the scope of a module, if it has been built. -/
def update (s : Session) (id : String) (change : Scope → Scope) : Session :=
  match s.scopes.find? id with
  | some scope => { s with scopes := s.scopes.insert id (change scope) }
  | none => s

/-- At least eight digits, so that drawn names line up. -/
def padded (n : Nat) : String :=
  let digits := Nat.toDigits 10 n
  String.ofList (List.replicate (8 - digits.length) '0' ++ digits)

/-- A name that has not been drawn before. -/
def draw (s : Session) (kind : InPlaceKind) : String × Session :=
  (kind.text ++ padded (s.drawn + 1), { s with drawn := s.drawn + 1 })

end Session

/-- An inference within a session. -/
def InferM (α : Type) : Type :=
  Session → Option (Except InferError α × Session)

namespace InferM

variable {α β : Type}

protected def pure (a : α) : InferM α := fun s => some (.ok a, s)

protected def bind (x : InferM α) (f : α → InferM β) : InferM β := fun s =>
  match x s with
  | none => none
  | some (.ok a, s') => f a s'
  | some (.error e, s') => some (.error e, s')

instance : Monad InferM where
  pure := InferM.pure
  bind := InferM.bind

/-- No outcome: the inference would have to look deeper. -/
def unfinished : InferM α := fun _ => none

def fail (e : InferError) : InferM α := fun s => some (.error e, s)

def ofExcept (r : Except InferError α) : InferM α := fun s => some (r, s)

/-- The outcome as a value, so that a failure can be looked at. -/
def attempt (x : InferM α) : InferM (Except InferError α) := fun s =>
  match x s with
  | none => none
  | some (r, s') => some (.ok r, s')

/-- The scope of a module. -/
def scope (p : Program) (id : String) : InferM Scope := fun s =>
  some (s.enter p id)

def updateScope (id : String) (change : Scope → Scope) : InferM Unit := fun s =>
  some (.ok (), s.update id change)

def draw (kind : InPlaceKind) : InferM String := fun s =>
  some (.ok (s.draw kind).1, (s.draw kind).2)

@[simp] theorem pure_apply (a : α) (s : Session) : (pure a : InferM α) s = some (.ok a, s) := rfl

theorem bind_apply (x : InferM α) (f : α → InferM β) (s : Session) :
    (x >>= f) s =
      match x s with
      | none => none
      | some (.ok a, s') => f a s'
      | some (.error e, s') => some (.error e, s') := rfl

@[simp] theorem fail_apply (e : InferError) (s : Session) :
    (fail e : InferM α) s = some (.error e, s) := rfl

@[simp] theorem unfinished_apply (s : Session) : (unfinished : InferM α) s = none := rfl

instance : LawfulMonad InferM := LawfulMonad.mk' InferM
  (by
    intro α x
    funext s
    change InferM.bind x InferM.pure s = x s
    unfold InferM.bind
    rcases x s with _ | ⟨_ | _, _⟩ <;> rfl)
  (by intros; rfl)
  (by
    intro α β γ x f g
    funext s
    change InferM.bind (InferM.bind x f) g s = InferM.bind x (fun a => InferM.bind (f a) g) s
    unfold InferM.bind
    rcases x s with _ | ⟨_ | _, _⟩ <;> rfl)

end InferM

end ResourceLint
