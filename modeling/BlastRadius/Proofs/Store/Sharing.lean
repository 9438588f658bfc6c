import BlastRadius.Proofs.Store.Exhaustion
import BlastRadius.Proofs.Store.Keeping

/-!
Programs on one store, any number of them or two. They take turns in any order. In its turn a
program makes one call or runs one block as a whole, so that none sees a block of another half done.
-/

namespace BlastRadius

variable {σ α β : Type}

namespace Program

/-- What is left of a program after its first call or block, and the state after it. -/
def advance (store : Store σ) : {α : Type} → Program α → σ → Program α × σ
  | _, done value, s => (done value, s)
  | _, call q next, s =>
      let answered := store.call q s
      (next answered.1, answered.2)
  | _, atomically body next, s =>
      let answered := store.atomically (fun inner => body.run store inner) s
      (next answered.1, answered.2)

/-- The first call or block alone. -/
def head : {α : Type} → Program α → Program Unit
  | _, done _ => done ()
  | _, call q _ => call q fun _ => done ()
  | _, atomically body _ => atomically body fun _ => done ()

/-- The answer of a program that has nothing left to do. -/
def answer? : {α : Type} → Program α → Option α
  | _, done value => some value
  | _, call _ _ => none
  | _, atomically _ _ => none

theorem answer?_eq_some {p : Program α} {x : α} : p.answer? = some x ↔ p = .done x := by
  cases p <;> simp [answer?]

theorem answer?_eq_ok {ε : Type} {p : Program (Except ε α)} {x : α}
    (answered : p.answer?.bind Except.toOption = some x) : p.answer? = some (.ok x) := by
  rcases h : p.answer? with _ | error | value
  · simp [h] at answered
  · simp [h, Except.toOption] at answered
  · simpa [h, Except.toOption] using answered

/-- Taken step by step, a program does what it does in one go. -/
theorem run_advance (store : Store σ) (p : Program α) (s : σ) :
    (p.advance store s).1.run store (p.advance store s).2 = p.run store s := by
  cases p <;> rfl

theorem head_run (store : Store σ) (p : Program α) (s : σ) :
    (p.head.run store s).2 = (p.advance store s).2 := by
  cases p <;> rfl

theorem Each.advance {C : Call → Prop}
    {B : (β : Type) → Program (Except StoreError β) → Prop}
    {p : Program α} (each : p.Each C B) (store : Store σ) (s : σ) :
    (p.advance store s).1.Each C B := by
  cases p with
  | done value => trivial
  | call q next => exact each.2 _
  | atomically body next => exact each.2 _

end Program

/-- What is left of the programs of clients, and the state of their store. -/
structure Clients (σ : Type) {ι : Type} (α : ι → Type) where
  program : (i : ι) → Program (α i)
  state : σ

namespace Clients

variable {ι : Type} [DecidableEq ι] {α : ι → Type} (store : Store σ)
    (clients : Clients σ α)

def turn (i : ι) : Clients σ α :=
  let advanced := (clients.program i).advance store clients.state
  ⟨Function.update clients.program i advanced.1, advanced.2⟩

def run (turns : List ι) : Clients σ α :=
  turns.foldl (turn store) clients

theorem turn_self (i : ι) : (clients.turn store i).program i =
    ((clients.program i).advance store clients.state).1 :=
  Function.update_self ..

theorem turn_of_ne {i j : ι} (other : j ≠ i) :
    (clients.turn store i).program j = clients.program j :=
  Function.update_of_ne other ..

theorem turn_ended {i : ι} {x : α i} (ended : clients.program i = .done x) :
    clients.turn store i = clients := by
  rw [turn, ended, Program.advance]
  exact congrArg (Clients.mk · _) (ended ▸ Function.update_eq_self i clients.program)

theorem turn_done {i : ι} {x : α i} (ended : clients.program i = .done x) (j : ι) :
    (clients.turn store j).program i = .done x := by
  by_cases same : i = j
  · subst same
    rw [turn_self, ended]
    rfl
  · rwa [turn_of_ne _ _ same]

theorem run_append (turns others : List ι) :
    clients.run store (turns ++ others) = (clients.run store turns).run store others :=
  List.foldl_append

theorem run_concat (turns : List ι) (i : ι) :
    clients.run store (turns ++ [i]) = (clients.run store turns).turn store i :=
  run_append ..

theorem each_run {C : Call → Prop} {B : (β : Type) → Program (Except StoreError β) → Prop}
    {i : ι}
    (each : (clients.program i).Each C B) (turns : List ι) :
    ((clients.run store turns).program i).Each C B := by
  induction turns using List.reverseRecOn with
  | nil => exact each
  | append_singleton early j ih =>
      rw [run_concat]
      by_cases same : i = j
      · subst same
        rw [turn_self]
        exact ih.advance store _
      · rwa [turn_of_ne _ _ same]

end Clients

/-- The clients that share a store. -/
inductive Client where
  | first
  | second
  deriving DecidableEq, Repr

/-- What each of two clients answers with. -/
def Client.Answer (α β : Type) : Client → Type
  | first => α
  | second => β

/-- What is left of the programs of two clients, and the state of their store. -/
structure TwoClients (σ α β : Type) where
  first : Program α
  second : Program β
  state : σ

namespace TwoClients

variable (store : Store σ) (clients : TwoClients σ α β)

def turn : Client → TwoClients σ α β
  | .first =>
      let advanced := clients.first.advance store clients.state
      { clients with first := advanced.1, state := advanced.2 }
  | .second =>
      let advanced := clients.second.advance store clients.state
      { clients with second := advanced.1, state := advanced.2 }

def run (turns : List Client) : TwoClients σ α β :=
  turns.foldl (turn store) clients

/-- What a client does in its next turn. -/
def upcoming : Client → Program Unit
  | .first => clients.first.head
  | .second => clients.second.head

/-- The two are clients among others. -/
def family : Clients σ (Client.Answer α β) where
  program
    | .first => clients.first
    | .second => clients.second
  state := clients.state

theorem family_turn (client : Client) :
    (clients.turn store client).family = clients.family.turn store client := by
  cases client <;> refine congrArg₂ Clients.mk (funext fun other => ?_) rfl <;> cases
    other <;> rfl

theorem family_run (turns : List Client) :
    (clients.run store turns).family = clients.family.run store turns := by
  induction turns generalizing clients with
  | nil => rfl
  | cons client rest ih =>
      exact (ih _).trans
        (congrArg (Clients.run store · rest) (family_turn ..))

theorem run_append (turns others : List Client) :
    clients.run store (turns ++ others) = (clients.run store turns).run store others :=
  List.foldl_append

theorem run_concat (turns : List Client) (client : Client) :
    clients.run store (turns ++ [client]) = (clients.run store turns).turn store client :=
  run_append ..

/-- Undisturbed, a client goes on with its program as if it ran in one go. -/
theorem run_alone (turns : Nat) :
    let left := clients.run store (List.replicate turns .first)
    left.first.run store left.state = clients.first.run store clients.state := by
  induction turns generalizing clients with
  | zero => rfl
  | succ turns ih =>
      exact (ih (clients.turn store .first)).trans (Program.run_advance store _ _)

theorem run_first {turns : List Client} (others : .first ∉ turns) :
    (clients.run store turns).first = clients.first := by
  induction turns generalizing clients with
  | nil => rfl
  | cons client rest ih =>
      rw [List.mem_cons, not_or] at others
      cases client with
      | first => exact absurd rfl others.1
      | second => exact ih (clients.turn store .second) others.2

end TwoClients

namespace Medium

variable {medium : Medium} {R : Contents → Contents → Prop}

theorem keeps_advance (refl : ∀ c, R c c) {p : Program α} (keeps : p.Keeps Contents.Tried R)
    {s : medium.State} (sound : medium.view.sound s) (enough : medium.Suffices p.head s) :
    R (medium.view.holds s) (medium.view.holds (p.advance medium.store s).2) ∧
      medium.view.sound (p.advance medium.store s).2 ∧
      (p.advance medium.store s).1.Keeps Contents.Tried R := by
  obtain ⟨ran, sound'⟩ := medium.runs_tried p.head sound enough
  rw [Program.head_run] at ran sound'
  cases p with
  | done value => exact ⟨refl _, sound, trivial⟩
  | call q next =>
      obtain ⟨r, m, stepped, -, same⟩ := ran
      exact ⟨same ▸ keeps.1 _ _ _ stepped, sound', keeps.2 _⟩
  | atomically body next =>
      obtain ⟨r, m, inner, -, same⟩ := ran
      exact ⟨same ▸ keeps.1 _ _ _ inner, sound', keeps.2 _⟩

theorem call_tried {q : Call} {s : medium.State} (sound : medium.view.sound s)
    (enough : medium.Suffices (Program.call q fun _ => .done ()) s) :
    Contents.Tried (medium.view.holds s) q (medium.store.call q s).1
      (medium.view.holds (medium.store.call q s).2) := by
  have enough' : medium.Suffices (Program.call q .done) s := by
    cases medium with
    | memory => exact ⟨enough.1, trivial⟩
    | database => trivial
  obtain ⟨r, m, tried, rfl, same⟩ := (medium.runs_tried _ sound enough').1
  exact same ▸ tried

section Family

variable {ι : Type} [DecidableEq ι] {γ : ι → Type}

/-- None of the turns asks for a node that the store cannot hold. -/
def Serves (medium : Medium) (clients : Clients medium.State γ) (turns : List ι) : Prop :=
  ∀ early i, early ++ [i] <+: turns →
    medium.Suffices ((clients.run medium.store early).program i).head
      (clients.run medium.store early).state

variable {clients : Clients medium.State γ} {turns : List ι}

theorem Serves.before {early : List ι} (serves : medium.Serves clients turns)
    (first : early <+: turns) : medium.Serves clients early :=
  fun before i among => serves before i (among.trans first)

/-- What holds at first and is kept by each turn from a sound state holds after turns. -/
theorem turns_invariant {I : List ι → Clients medium.State γ → Prop} (start : I [] clients)
    (step : ∀ early (now : Clients medium.State γ) i, medium.view.sound now.state →
      I early now →
      medium.Suffices (now.program i).head now.state →
        I (early ++ [i]) (now.turn medium.store i))
    (sound : medium.view.sound clients.state) (serves : medium.Serves clients turns) :
    I turns (clients.run medium.store turns) ∧
      medium.view.sound (clients.run medium.store turns).state := by
  induction turns using List.reverseRecOn with
  | nil => exact ⟨start, sound⟩
  | append_singleton early i ih =>
      obtain ⟨held, sound'⟩ := ih (serves.before (List.prefix_append _ _))
      have enough := serves early i (List.prefix_refl _)
      rw [Clients.run_concat]
      refine ⟨step _ _ i sound' held enough, ?_⟩
      have ran := (medium.runs_tried _ sound' enough).2
      rwa [Program.head_run] at ran

theorem keeps_run (clients : Clients medium.State γ) (refl : ∀ c, R c c)
    (trans : ∀ {a b c}, R a b → R b c → R a c)
    (keeps : ∀ i, (clients.program i).Keeps Contents.Tried R)
    (sound : medium.view.sound clients.state) (serves : medium.Serves clients turns) :
    R (medium.view.holds clients.state)
        (medium.view.holds (clients.run medium.store turns).state) ∧
      medium.view.sound (clients.run medium.store turns).state := by
  refine And.imp_left And.left (turns_invariant
    (I := fun _ now => R (medium.view.holds clients.state) (medium.view.holds now.state) ∧
      ∀ i, (now.program i).Keeps Contents.Tried R)
    ⟨refl _, keeps⟩ (fun _ now i sound' held enough => ?_) sound serves)
  refine ⟨trans held.1 (keeps_advance refl (held.2 i) sound' enough).1, fun j => ?_⟩
  exact now.each_run medium.store (held.2 j) [i]

end Family

/-- None of the turns asks for a node that the store cannot hold. -/
def Shares (medium : Medium) (clients : TwoClients medium.State α β) (turns : List Client) :
    Prop :=
  ∀ early client, early ++ [client] <+: turns →
    medium.Suffices ((clients.run medium.store early).upcoming client)
      (clients.run medium.store early).state

variable {clients : TwoClients medium.State α β} {turns : List Client}

theorem Shares.before {early : List Client} (shares : medium.Shares clients turns)
    (first : early <+: turns) : medium.Shares clients early :=
  fun before client among => shares before client (among.trans first)

theorem Shares.after {early late : List Client} (shares : medium.Shares clients (early ++ late)) :
    medium.Shares (clients.run medium.store early) late := by
  intro before client among
  rw [← TwoClients.run_append]
  refine shares (early ++ before) client ?_
  rw [List.append_assoc]
  exact (List.prefix_append_right_inj early).mpr among

theorem Shares.family (shares : medium.Shares clients turns) :
    medium.Serves clients.family turns := by
  intro early client among
  rw [← TwoClients.family_run]
  have enough := shares early client among
  cases client <;> exact enough

theorem keeps_turns (clients : TwoClients medium.State α β) (refl : ∀ c, R c c)
    (trans : ∀ {a b c}, R a b → R b c → R a c) (first : clients.first.Keeps Contents.Tried R)
    (second : clients.second.Keeps Contents.Tried R)
    (sound : medium.view.sound clients.state) (shares : medium.Shares clients turns) :
    R (medium.view.holds clients.state)
        (medium.view.holds (clients.run medium.store turns).state) ∧
      medium.view.sound (clients.run medium.store turns).state ∧
      (clients.run medium.store turns).first.Keeps Contents.Tried R ∧
      (clients.run medium.store turns).second.Keeps Contents.Tried R := by
  have keeps (client : Client) : (clients.family.program client).Keeps Contents.Tried R := by
    cases client with
    | first => exact first
    | second => exact second
  have left (client : Client) :
      ((clients.run medium.store turns).family.program client).Keeps Contents.Tried R :=
    clients.family_run medium.store turns ▸ clients.family.each_run medium.store
      (keeps client) turns
  obtain ⟨kept, sound'⟩ := keeps_run clients.family refl trans keeps sound shares.family
  rw [← TwoClients.family_run] at kept sound'
  exact ⟨kept, sound', left .first, left .second⟩

theorem keeps_later (clients : TwoClients medium.State α β) (refl : ∀ c, R c c)
    (trans : ∀ {a b c}, R a b → R b c → R a c) (first : clients.first.Keeps Contents.Tried R)
    (second : clients.second.Keeps Contents.Tried R)
    (sound : medium.view.sound clients.state) {early late : List Client}
    (shares : medium.Shares clients (early ++ late)) :
    R (medium.view.holds (clients.run medium.store early).state)
      (medium.view.holds (clients.run medium.store (early ++ late)).state) := by
  obtain ⟨-, sound', first', second'⟩ :=
    keeps_turns clients refl trans first second sound (shares.before (List.prefix_append _ _))
  rw [TwoClients.run_append]
  exact (keeps_turns _ refl trans first' second' sound' shares.after).1

end Medium

end BlastRadius
