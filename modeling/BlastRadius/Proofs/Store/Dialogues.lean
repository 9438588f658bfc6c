import BlastRadius.Store.Basic

/-!
Dialogues with a store: calls and requests to open or close a level, in any order, each of which may
depend on the answers to those before it. Unlike a program, a dialogue may open levels by itself and
need not close them. On a store that runs a block once, a program is a dialogue that does.
-/

namespace BlastRadius

/-- A call or a request with the answer to it. -/
inductive Exchange : Type where
  | call (q : Call) (answer : Except StoreError q.Reply)
  | control (request : Control) (answer : Except StoreError Unit)

/-- A dialogue that ends with an `α`. -/
inductive Dialogue (α : Type) : Type where
  | done (value : α)
  | call (q : Call) (next : Except StoreError q.Reply → Dialogue α)
  | control (request : Control) (next : Except StoreError Unit → Dialogue α)

namespace Dialogue

variable {α β γ σ τ : Type}

def bind : Dialogue α → (α → Dialogue β) → Dialogue β
  | done value, f => f value
  | call q next, f => call q fun answer => bind (next answer) f
  | control request next, f => control request fun answer => bind (next answer) f

instance : Monad Dialogue where
  pure := done
  bind := bind

theorem bind_done (d : Dialogue α) : bind d done = d := by
  induction d with
  | done value => rfl
  | call q next ih => simp [bind, ih]
  | control request next ih => simp [bind, ih]

theorem bind_assoc (d : Dialogue α) (f : α → Dialogue β) (g : β → Dialogue γ) :
    bind (bind d f) g = bind d fun value => bind (f value) g := by
  induction d with
  | done value => rfl
  | call q next ih => simp [bind, ih]
  | control request next ih => simp [bind, ih]

instance : LawfulMonad Dialogue := LawfulMonad.mk' Dialogue bind_done (fun _ _ => rfl) bind_assoc

def ask (q : Call) : Dialogue (Except StoreError q.Reply) := call q done

def request (request : Control) : Dialogue (Except StoreError Unit) := control request done

def run (store : Store σ) : Dialogue α → σ → α × σ
  | done value, s => (value, s)
  | call q next, s => (next (store.call q s).1).run store (store.call q s).2
  | control request next, s =>
      (next (store.control request s).1).run store (store.control request s).2

/-- What is called and requested in a dialogue, and what the store answers. -/
def transcript (store : Store σ) : Dialogue α → σ → List Exchange
  | done _, _ => []
  | call q next, s =>
      .call q (store.call q s).1 ::
        (next (store.call q s).1).transcript store (store.call q s).2
  | control request next, s =>
      .control request (store.control request s).1 ::
        (next (store.control request s).1).transcript store (store.control request s).2

variable {store : Store σ}

theorem run_bind (d : Dialogue α) (f : α → Dialogue β) (s : σ) :
    (d >>= f).run store s = (f (d.run store s).1).run store (d.run store s).2 := by
  change (d.bind f).run store s = _
  induction d generalizing s with
  | done value => rfl
  | call q next ih => exact ih _ _
  | control request next ih => exact ih _ _

/-- What every request and every call keeps, a dialogue keeps. -/
theorem run_keeps {P : σ → Prop} (control : ∀ request s, P s → P (store.control request s).2)
    (call : ∀ q s, P s → P (store.call q s).2) (d : Dialogue α) {s : σ} (holds : P s) :
    P (d.run store s).2 := by
  induction d generalizing s with
  | done value => exact holds
  | call q next ih => exact ih _ (call q s holds)
  | control request next ih => exact ih _ (control request s holds)

/-- Rolls back and ends with an error. -/
def abort (error : StoreError) : Dialogue (Except StoreError β) :=
  control .rollback fun _ => done (.error error)

/-- A block between a begin and a commit, rolled back when the block or the commit fails. -/
def atomically (block : Dialogue (Except StoreError β)) : Dialogue (Except StoreError β) :=
  control .begin fun
    | .error error => done (.error error)
    | .ok _ => block.bind fun
        | .error error => abort error
        | .ok value => control .commit fun
            | .error error => abort error
            | .ok _ => done (.ok value)

theorem run_atomically (block : Dialogue (Except StoreError β)) (s : σ) :
    (atomically block).run store s = Store.transaction store.control (block.run store) s := by
  rw [atomically, Store.transaction, run]
  rcases store.control .begin s with ⟨error | _, s₁⟩
  · rfl
  · refine (run_bind block _ s₁).trans ?_
    dsimp only
    rcases block.run store s₁ with ⟨error | value, s₂⟩
    · rfl
    · dsimp only [run]
      rcases store.control .commit s₂ with ⟨error | _, s₃⟩ <;> rfl

def ofProgram : {α : Type} → Program α → Dialogue α
  | _, .done value => done value
  | _, .call q next => call q fun answer => ofProgram (next answer)
  | _, .atomically body next => (atomically (ofProgram body)).bind fun result =>
      ofProgram (next result)

/-- A program is the dialogue of its calls, with transactions spelled out. -/
theorem run_ofProgram (once : ∀ {β : Type} (body : σ → Outcome σ β) (s : σ),
    store.atomically body s = Store.transaction store.control body s) (p : Program α) (s : σ) :
    (ofProgram p).run store s = p.run store s := by
  induction p generalizing s with
  | done value => rfl
  | call q next ih => exact ih _ _
  | atomically body next ihBody ih =>
      have block : (ofProgram body).run store = fun s => body.run store s := funext ihBody
      refine (run_bind _ _ s).trans ?_
      rw [Program.run, once, run_atomically, block]
      exact ih _ _

end Dialogue

/-- A store that does on the images of another store's states what the other one does. -/
structure Store.Mirrors {σ τ : Type} (store : Store σ) (other : Store τ) (image : τ → σ) :
    Prop where
  control (request : Control) (t : τ) :
    store.control request (image t) = (other.control request t).map id image
  call (q : Call) (t : τ) : store.call q (image t) = (other.call q t).map id image

namespace Store

variable {σ τ α : Type} {store : Store σ} {other : Store τ} {image : τ → σ}

theorem Mirrors.refl (store : Store σ) : store.Mirrors store id :=
  ⟨fun _ _ => rfl, fun _ _ => rfl⟩

theorem Mirrors.run (mirrors : store.Mirrors other image) (d : Dialogue α) (t : τ) :
    d.run store (image t) = (d.run other t).map id image := by
  induction d generalizing t with
  | done value => rfl
  | call q next ih =>
      rw [Dialogue.run, mirrors.call]
      exact ih _ _
  | control request next ih =>
      rw [Dialogue.run, mirrors.control]
      exact ih _ _

theorem Mirrors.transcript (mirrors : store.Mirrors other image) (d : Dialogue α) (t : τ) :
    d.transcript store (image t) = d.transcript other t := by
  induction d generalizing t with
  | done value => rfl
  | call q next ih =>
      rw [Dialogue.transcript, mirrors.call]
      exact congrArg _ (ih _ _)
  | control request next ih =>
      rw [Dialogue.transcript, mirrors.control]
      exact congrArg _ (ih _ _)

theorem transaction_keeps {P : σ → Prop} {control : Control → σ → Outcome σ Unit}
    {body : σ → Outcome σ α} {s : σ}
    (requests : ∀ request s, P s → P (control request s).2)
    (block : P (control .begin s).2 → P (body (control .begin s).2).2) (holds : P s) :
    P (transaction control body s).2 := by
  have begun := requests .begin s holds
  rw [transaction]
  rcases opening : control .begin s with ⟨error | _, s₁⟩
  · rwa [opening] at begun
  · rw [opening] at begun block
    have ran := block begun
    rcases ended : body s₁ with ⟨error | value, s₂⟩
    · rw [ended] at ran
      simp only [ended]
      exact requests .rollback s₂ ran
    · rw [ended] at ran
      have committed := requests .commit s₂ ran
      simp only [ended]
      rcases closing : control .commit s₂ with ⟨error | _, s₃⟩
      · rw [closing] at committed
        exact requests .rollback s₃ committed
      · rwa [closing] at committed

theorem transaction_image {control : Control → σ → Outcome σ Unit}
    {inner : Control → τ → Outcome τ Unit} {body : σ → Outcome σ α}
    {block : τ → Outcome τ α}
    (controls : ∀ request t, control request (image t) = (inner request t).map id image)
    (blocks : ∀ t, body (image t) = (block t).map id image) (t : τ) :
    transaction control body (image t) = (transaction inner block t).map id image := by
  rw [transaction, transaction, controls]
  rcases inner .begin t with ⟨error | _, t₁⟩
  · rfl
  · simp only [Prod.map, id_eq, blocks]
    rcases block t₁ with ⟨error | value, t₂⟩
    · simp only [Prod.map, abort, controls, id_eq]
    · simp only [Prod.map, id_eq, controls]
      rcases inner .commit t₂ with ⟨error | _, t₃⟩
      · simp only [Prod.map, abort, controls, id_eq]
      · rfl

end Store

end BlastRadius
