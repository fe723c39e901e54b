import Mathlib.Algebra.BigOperators.Group.Finset.Piecewise
import Mathlib.Algebra.Order.BigOperators.Group.Finset
import Mathlib.Data.Fintype.Basic
import Mathlib.Logic.Function.Basic
import SolidIrcd.Lib.Machine
import SolidIrcd.Lib.Tree

/-! Nodes that hand messages on along a tree. What one node queues for another is read in its order; otherwise
the nodes take their turns as they like. -/

namespace SolidIrcd

open Function (update)

namespace Flood

variable {ν σ μ : Type}

/-- `inbox a b` is what `a` has queued for `b`; what a node was told, or spoke first, is kept in
`heard` and `spoken`. -/
structure World (ν σ μ : Type) where
  node : ν → σ
  inbox : ν → ν → List μ
  heard : ν → List μ
  spoken : ν → List μ

/-- What a node makes of a message, which is its own or came from a neighbour: what it queues for whom. -/
abbrev Take (ν σ μ : Type) := ν → σ → Option ν → μ → σ × (ν → List μ)

inductive Action (ν σ μ : Type) where
  | speak (node : ν) (message : μ)
  | read (sender reader : ν)
  /-- Whatever else a node does. -/
  | stir (node : ν) (state : σ)

/-- Nothing happens but that messages are read. -/
def Reading (_ : World ν σ μ) (action : Action ν σ μ) : Prop := ∃ sender reader, action = .read sender reader

def World.Quiet (world : World ν σ μ) : Prop := ∀ a b, world.inbox a b = []

variable [DecidableEq ν]

def World.handle (take : Take ν σ μ) (world : World ν σ μ) (here : ν) (came : Option ν) (message : μ) : World ν σ μ :=
  let (state, sent) := take here (world.node here) came message
  { world with
    node := update world.node here state
    inbox := fun a b => if a = here then world.inbox a b ++ sent b else world.inbox a b
    heard := update world.heard here (world.heard here ++ [message]) }

def World.speak (world : World ν σ μ) (here : ν) (message : μ) : World ν σ μ :=
  { world with spoken := update world.spoken here (world.spoken here ++ [message]) }

def World.pop (world : World ν σ μ) (sender reader : ν) (rest : List μ) : World ν σ μ :=
  { world with inbox := fun a b => if a = sender ∧ b = reader then rest else world.inbox a b }

def perform (take : Take ν σ μ) (world : World ν σ μ) : Action ν σ μ → World ν σ μ
  | .speak node message => (world.speak node message).handle take node none message
  | .read sender reader =>
    match world.inbox sender reader with
    | [] => world
    | message :: rest => (world.pop sender reader rest).handle take reader (some sender) message
  | .stir node state => { world with node := update world.node node state }

/-- A node speaks for itself, and stays fit for what it has heard. -/
def possible (Fit : ν → σ → List μ → Prop) (origin : μ → ν) (world : World ν σ μ) : Action ν σ μ → Prop
  | .speak node message => origin message = node
  | .read _ _ => True
  | .stir node state => ∀ told, Fit node (world.node node) told → Fit node state told

def network (take : Take ν σ μ) (Fit : ν → σ → List μ → Prop) (origin : μ → ν) :
    Machine (World ν σ μ) (Action ν σ μ) :=
  ⟨perform take, possible Fit origin⟩

/-- A message is its node's own, or came from where it was spoken. -/
def Arrives (tree : Tree ν) (here : ν) (came : Option ν) (origin : ν) : Prop :=
  match came with
  | none => here = origin
  | some sender => tree.Behind here sender origin

/-- A message came over a link that leads to a node that may hear it. -/
def Leads (tree : Tree ν) (may : μ → ν → Prop) (here : ν) (came : Option ν) (message : μ) : Prop :=
  ∀ sender, came = some sender → ∃ x, may message x ∧ tree.Behind sender here x

omit [DecidableEq ν] in
/-- A message is never sent back, once at most to any neighbour, to those that lead to a node that must
hear it, and only to those that lead to one that may. -/
structure Relays (tree : Tree ν) (take : Take ν σ μ) (Fit : ν → σ → List μ → Prop) (origin : μ → ν)
    (must may : μ → ν → Prop) : Prop where
  fit : Fit here state told → Arrives tree here came (origin message) → Leads tree may here came message →
    Fit here (take here state came message).1 (told ++ [message])
  once : Fit here state told → Arrives tree here came (origin message) →
    (take here state came message).2 c = [message] ∨ (take here state came message).2 c = []
  reaches : Fit here state told → Arrives tree here came (origin message) → came ≠ some c → must message x →
    tree.Behind here c x → (take here state came message).2 c = [message]
  only : Fit here state told → Arrives tree here came (origin message) → Leads tree may here came message →
    sent ∈ (take here state came message).2 c → came ≠ some c ∧ ∃ x, may message x ∧ tree.Behind here c x

variable {tree : Tree ν} {take : Take ν σ μ} {Fit : ν → σ → List μ → Prop} {origin : μ → ν} {must : μ → ν → Bool}
variable {may : μ → ν → Prop} {world : World ν σ μ}

/-- The messages of `speaker`. -/
def own (origin : μ → ν) (speaker : ν) (messages : List μ) : List μ :=
  messages.filter fun message => origin message = speaker

/-- The messages of `speaker` that must come to `hearer`. -/
def due (origin : μ → ν) (must : μ → ν → Bool) (speaker hearer : ν) (messages : List μ) : List μ :=
  messages.filter fun message => origin message = speaker ∧ must message hearer = true

/-- What is on its way over a link was spoken behind it and is for a node ahead. Between two neighbours on the way
of a message, the second has heard what the first has, but for what is on its way. -/
structure Sound (tree : Tree ν) (Fit : ν → σ → List μ → Prop) (origin : μ → ν) (must : μ → ν → Bool)
    (may : μ → ν → Prop) (world : World ν σ μ) : Prop where
  fit : ∀ here, Fit here (world.node here) (world.heard here)
  passing : ∀ a b, ∀ message ∈ world.inbox a b,
    tree.Behind b a (origin message) ∧ ∃ x, may message x ∧ tree.Behind a b x
  spoken : ∀ speaker, own origin speaker (world.heard speaker) = world.spoken speaker
  heard : ∀ here, ∀ message ∈ world.heard here, here = origin message ∨
    ∃ x, may message x ∧ tree.Behind (tree.next here (origin message)) here x
  order : ∀ speaker a b, tree.Behind b a speaker →
    (own origin speaker (world.heard b) ++ own origin speaker (world.inbox a b)).Sublist
      (own origin speaker (world.heard a))
  level : ∀ speaker hearer a b, tree.Behind b a speaker → tree.Behind a b hearer →
    due origin must speaker hearer (world.heard b) ++ due origin must speaker hearer (world.inbox a b) =
      due origin must speaker hearer (world.heard a)

theorem own_append : own origin speaker (first ++ second) = own origin speaker first ++ own origin speaker second :=
  List.filter_append ..

theorem own_other (other : origin message ≠ speaker) : own origin speaker [message] = [] := by
  simp [own, other]

theorem due_append : due origin must speaker hearer (first ++ second) =
    due origin must speaker hearer first ++ due origin must speaker hearer second :=
  List.filter_append ..

theorem due_other (other : ¬ (origin message = speaker ∧ must message hearer = true)) :
    due origin must speaker hearer [message] = [] := by
  simp [due, other]

theorem sound_start (fit : ∀ here, Fit here (node here) []) :
    Sound tree Fit origin must may ⟨node, fun _ _ => [], fun _ => [], fun _ => []⟩ where
  fit := fit
  passing := nofun
  spoken := fun _ => rfl
  heard := nofun
  order := fun _ _ _ _ => .slnil
  level := fun _ _ _ _ _ _ => rfl

/-- What handling a message needs of the world: the message is off its link, but its reader has not heard it. -/
structure Pending (tree : Tree ν) (Fit : ν → σ → List μ → Prop) (origin : μ → ν) (must : μ → ν → Bool)
    (may : μ → ν → Prop) (here : ν) (came : Option ν) (message : μ) (world : World ν σ μ) : Prop where
  fit : ∀ here, Fit here (world.node here) (world.heard here)
  passing : ∀ a b, ∀ message ∈ world.inbox a b,
    tree.Behind b a (origin message) ∧ ∃ x, may message x ∧ tree.Behind a b x
  arrives : Arrives tree here came (origin message)
  leads : Leads tree may here came message
  spoken : ∀ speaker, own origin speaker (world.heard speaker) ++
    (if here = speaker ∧ origin message = speaker then [message] else []) = world.spoken speaker
  heard : ∀ here, ∀ message ∈ world.heard here, here = origin message ∨
    ∃ x, may message x ∧ tree.Behind (tree.next here (origin message)) here x
  news : here = origin message ∨ ∃ x, may message x ∧ tree.Behind (tree.next here (origin message)) here x
  order : ∀ speaker a b, tree.Behind b a speaker →
    (own origin speaker (world.heard b) ++ ((if here = b ∧ came = some a then own origin speaker [message] else []) ++
      own origin speaker (world.inbox a b))).Sublist (own origin speaker (world.heard a))
  level : ∀ speaker hearer a b, tree.Behind b a speaker → tree.Behind a b hearer →
    due origin must speaker hearer (world.heard b) ++
      ((if here = b ∧ came = some a then due origin must speaker hearer [message] else []) ++
        due origin must speaker hearer (world.inbox a b)) = due origin must speaker hearer (world.heard a)

omit [DecidableEq ν] in
/-- Where a message goes on to, it was spoken on the near side of the link. -/
theorem Arrives.past (arrives : Arrives tree here came speaker) (forth : came ≠ some c)
    (ahead : tree.Behind here c x) : tree.Behind c here speaker := by
  cases came with
  | none =>
    have own : here = speaker := arrives
    exact own ▸ ahead.symm
  | some sender =>
    have back : tree.Behind here sender speaker := arrives
    by_contra other
    have same : c = sender := (ahead.sides.mpr other).unique back
    exact forth (same ▸ rfl)

/-- A message that is queued is the one that is handled, and is on a way of its own. -/
theorem Pending.queued (relays : Relays tree take Fit origin (fun message x => must message x = true) may)
    (pending : Pending tree Fit origin must may here came message world)
    (queued : sent ∈ (take here (world.node here) came message).2 c) :
    sent = message ∧ tree.Behind c here (origin message) ∧ ∃ x, may message x ∧ tree.Behind here c x := by
  have fit := pending.fit here
  obtain ⟨forth, x, wanted, ahead⟩ := relays.only fit pending.arrives pending.leads queued
  refine ⟨?_, pending.arrives.past forth ahead, x, wanted, ahead⟩
  obtain single | none := relays.once fit pending.arrives (c := c)
  · rw [single] at queued
    exact List.mem_singleton.mp queued
  · rw [none] at queued
    exact absurd queued List.not_mem_nil

/-- What is queued is as much of the message as is due. -/
theorem Pending.due_sent (relays : Relays tree take Fit origin (fun message x => must message x = true) may)
    (pending : Pending tree Fit origin must may here came message world)
    (before : tree.Behind c here speaker) (ahead : tree.Behind here c hearer) :
    due origin must speaker hearer ((take here (world.node here) came message).2 c) =
      due origin must speaker hearer [message] := by
  have fit := pending.fit here
  by_cases wanted : origin message = speaker ∧ must message hearer = true
  · obtain ⟨rfl, wanted⟩ := wanted
    have forth : came ≠ some c := by
      rintro rfl
      exact ahead.sides.mp pending.arrives before
    rw [relays.reaches fit pending.arrives forth wanted ahead]
  · obtain single | none := relays.once fit pending.arrives (c := c)
    · rw [single]
    · rw [none, due_other wanted]
      rfl

/-- The messages of a speaker come from one neighbour only. -/
theorem Pending.elsewhere (pending : Pending tree Fit origin must may here came message world)
    (before : tree.Behind here a speaker) (other : came ≠ some a) : origin message ≠ speaker := by
  rintro rfl
  have arrives := pending.arrives
  cases came with
  | none => exact before.1 arrives.symm
  | some sender =>
    have same : a = sender := before.unique arrives
    exact other (same ▸ rfl)

/-- Handling a message brings its node level with the one before it, and is what the nodes after it are to hear. -/
theorem Pending.handle (relays : Relays tree take Fit origin (fun message x => must message x = true) may)
    (pending : Pending tree Fit origin must may here came message world) :
    Sound tree Fit origin must may (world.handle take here came message) := by
  refine ⟨fun other => ?_, fun a b passed queued => ?_, fun speaker => ?_, fun other told inside => ?_,
    fun speaker a b before => ?_, fun speaker hearer a b before ahead => ?_⟩
  · by_cases same : other = here
    · subst same
      simpa [World.handle] using relays.fit (pending.fit other) pending.arrives pending.leads
    · simpa [World.handle, same] using pending.fit other
  · simp only [World.handle] at queued
    by_cases same : a = here
    · subst same
      rw [if_pos rfl, List.mem_append] at queued
      obtain old | new := queued
      · exact pending.passing a b passed old
      · obtain ⟨rfl, way⟩ := pending.queued relays new
        exact way
    · rw [if_neg same] at queued
      exact pending.passing a b passed queued
  · have spoken := pending.spoken speaker
    by_cases same : speaker = here
    · subst same
      simpa [World.handle, own, List.filter_append, List.filter_singleton, cond_eq_ite] using spoken
    · simpa [World.handle, same, Ne.symm same] using spoken
  · by_cases same : other = here
    · subst same
      have inside : told ∈ world.heard other ∨ told = message := by simpa [World.handle] using inside
      obtain old | rfl := inside
      · exact pending.heard other told old
      · exact pending.news
    · have inside : told ∈ world.heard other := by simpa [World.handle, same] using inside
      exact pending.heard other told inside
  · have order := pending.order speaker a b before
    have apart : a ≠ b := before.joined.1
    by_cases last : b = here
    · subst last
      simp only [World.handle, if_neg apart, Function.update_self, Function.update_of_ne apart, own_append]
      by_cases link : came = some a
      · simpa [link] using order
      · simpa [link, own_other (pending.elsewhere before link)] using order
    · rw [if_neg fun both => last both.1.symm, List.nil_append] at order
      by_cases first : a = here
      · subst first
        simp only [World.handle, if_true, Function.update_self, Function.update_of_ne last, own_append]
        rw [← List.append_assoc]
        refine order.append ?_
        obtain single | none := relays.once (pending.fit a) pending.arrives (c := b)
        · rw [single]
        · rw [none]
          exact List.nil_sublist _
      · simpa only [World.handle, if_neg first, Function.update_of_ne last, Function.update_of_ne first] using order
  · have level := pending.level speaker hearer a b before ahead
    have apart : a ≠ b := before.joined.1
    by_cases last : b = here
    · subst last
      simp only [World.handle, if_neg apart, Function.update_self, Function.update_of_ne apart, due_append]
      by_cases link : came = some a
      · simpa [link] using level
      · simpa [link, due_other fun wanted => pending.elsewhere before link wanted.1] using level
    · rw [if_neg fun both => last both.1.symm, List.nil_append] at level
      by_cases first : a = here
      · subst first
        simp only [World.handle, if_true, Function.update_self, Function.update_of_ne last, due_append]
        rw [pending.due_sent relays before ahead, ← List.append_assoc, level]
      · simpa only [World.handle, if_neg first, Function.update_of_ne last, Function.update_of_ne first] using level

theorem Sound.speak (sound : Sound tree Fit origin must may world) (mine : origin message = here) :
    Pending tree Fit origin must may here none message (world.speak here message) where
  fit := sound.fit
  passing := sound.passing
  arrives := mine.symm
  leads := nofun
  spoken := fun speaker => by
    by_cases same : speaker = here
    · subst same
      simpa [World.speak, mine] using sound.spoken speaker
    · simpa [World.speak, same, Ne.symm same] using sound.spoken speaker
  heard := sound.heard
  news := .inl mine.symm
  order := fun speaker a b before => by
    simpa [World.speak] using sound.order speaker a b before
  level := fun speaker hearer a b before ahead => by
    simpa [World.speak] using sound.level speaker hearer a b before ahead

theorem Sound.pop (sound : Sound tree Fit origin must may world) (queued : world.inbox sender here = message :: rest) :
    Pending tree Fit origin must may here (some sender) message (world.pop sender here rest) where
  fit := sound.fit
  passing := fun a b passed inside => by
    simp only [World.pop] at inside
    split at inside
    next link =>
      rw [link.1, link.2]
      exact sound.passing sender here passed (queued ▸ List.mem_cons_of_mem _ inside)
    · exact sound.passing a b passed inside
  arrives := (sound.passing sender here message (queued ▸ List.mem_cons_self ..)).1
  leads := fun other same => by
    obtain rfl := Option.some.inj same
    exact (sound.passing sender here message (queued ▸ List.mem_cons_self ..)).2
  spoken := fun speaker => by
    have back := (sound.passing sender here message (queued ▸ List.mem_cons_self ..)).1
    have other : ¬ (here = speaker ∧ origin message = speaker) := fun both => back.1 (both.2.trans both.1.symm)
    rw [if_neg other, List.append_nil]
    exact sound.spoken speaker
  heard := sound.heard
  news := by
    obtain ⟨back, x, wanted, ahead⟩ := sound.passing sender here message (queued ▸ List.mem_cons_self ..)
    exact .inr ⟨x, wanted, back.2.symm ▸ ahead⟩
  order := fun speaker a b before => by
    have order := sound.order speaker a b before
    simp only [World.pop]
    by_cases link : a = sender ∧ b = here
    · obtain ⟨rfl, rfl⟩ := link
      rw [queued] at order
      simpa [← own_append] using order
    · have other : ¬ (here = b ∧ some sender = some a) := fun both =>
        link ⟨(Option.some.inj both.2).symm, both.1.symm⟩
      rw [if_neg link, if_neg other]
      exact order
  level := fun speaker hearer a b before ahead => by
    have level := sound.level speaker hearer a b before ahead
    simp only [World.pop]
    by_cases link : a = sender ∧ b = here
    · obtain ⟨rfl, rfl⟩ := link
      rw [queued] at level
      simpa [← due_append] using level
    · have other : ¬ (here = b ∧ some sender = some a) := fun both =>
        link ⟨(Option.some.inj both.2).symm, both.1.symm⟩
      rw [if_neg link, if_neg other]
      exact level

theorem sound_perform (relays : Relays tree take Fit origin (fun message x => must message x = true) may)
    (sound : Sound tree Fit origin must may world) (action : Action ν σ μ)
    (allowed : possible Fit origin world action) : Sound tree Fit origin must may (perform take world action) := by
  cases action with
  | speak here message => exact (sound.speak allowed).handle relays
  | read sender here =>
    cases queued : world.inbox sender here with
    | nil => simpa [perform, queued] using sound
    | cons message rest =>
      have pending := sound.pop queued
      simpa [perform, queued] using pending.handle relays
  | stir here state =>
    refine ⟨fun other => ?_, sound.passing, sound.spoken, sound.heard, sound.order, sound.level⟩
    by_cases same : other = here
    · subst same
      have fit : Fit other state (world.heard other) := allowed _ (sound.fit other)
      simpa [perform] using fit
    · simpa [perform, same] using sound.fit other

theorem sound_run (relays : Relays tree take Fit origin (fun message x => must message x = true) may)
    (fit : ∀ here, Fit here (node here) [])
    (run : (network take Fit origin).Run Machine.Any ⟨node, fun _ _ => [], fun _ => [], fun _ => []⟩ world) :
    Sound tree Fit origin must may world :=
  run.invariant _ (fun _ action allowed _ sound => sound_perform relays sound action allowed) (sound_start fit)

/-- What a node has heard of another was spoken there: nothing twice, and all in its order. -/
theorem Sound.heard_sublist (sound : Sound tree Fit origin must may world) (speaker here : ν) :
    (own origin speaker (world.heard here)).Sublist (world.spoken speaker) := by
  rw [← sound.spoken speaker]
  refine tree.follow List.Sublist (List.Sublist.refl _) List.Sublist.trans
    (fun here => own origin speaker (world.heard here)) here ?_ here ?_
  · intro a b before _
    exact (List.sublist_append_left _ _).trans (sound.order speaker a b before)
  · intro apart
    exact (Tree.behind_next (Ne.symm apart)).symm

theorem Sound.due_spoken (sound : Sound tree Fit origin must may world) :
    due origin must speaker hearer (world.heard speaker) = due origin must speaker hearer (world.spoken speaker) := by
  rw [← sound.spoken speaker, due, due, own, List.filter_filter]
  apply List.filter_congr
  intro message _
  by_cases mine : origin message = speaker <;> simp [mine]

/-- When nothing is on its way, a node has heard all that it must hear. -/
theorem Sound.heard_quiet (sound : Sound tree Fit origin must may world) (quiet : world.Quiet) (speaker hearer : ν) :
    due origin must speaker hearer (world.heard hearer) = due origin must speaker hearer (world.spoken speaker) := by
  rw [← sound.due_spoken]
  refine tree.follow Eq rfl Eq.trans (fun here => due origin must speaker hearer (world.heard here))
    hearer ?_ hearer ?_
  · intro a b before ahead
    have level := sound.level speaker hearer a b before ahead
    rwa [quiet, due, due, List.filter_nil, List.append_nil] at level
  · intro apart
    exact (Tree.behind_next (Ne.symm apart)).symm

/-- So it is for any messages among those that must come to the node. -/
theorem Sound.heard_filter (sound : Sound tree Fit origin must may world) (quiet : world.Quiet) (speaker hearer : ν)
    (p : μ → Bool) (needed : ∀ message, p message = true → must message hearer = true) :
    (own origin speaker (world.heard hearer)).filter p = (world.spoken speaker).filter p := by
  have drop (messages : List μ) :
      (due origin must speaker hearer messages).filter p = (own origin speaker messages).filter p := by
    rw [due, own, List.filter_filter, List.filter_filter]
    apply List.filter_congr
    intro message _
    cases wanted : p message with
    | false => rfl
    | true => simp [needed message wanted]
  have mine : own origin speaker (world.spoken speaker) = world.spoken speaker := by
    rw [← sound.spoken speaker, own, own, List.filter_filter]
    simp
  rw [← drop, sound.heard_quiet quiet, drop, mine]

section Settles

variable [Fintype ν]

instance (tree : Tree ν) (a c x : ν) : Decidable (tree.Behind a c x) := inferInstanceAs (Decidable (_ ∧ _))

/-- How many nodes are behind a link. -/
def size (tree : Tree ν) (a b : ν) : Nat := (Finset.univ.filter fun x => tree.Behind a b x).card

/-- How often what is on its way can still be read. -/
def load (tree : Tree ν) (world : World ν σ μ) : Nat := ∑ a, ∑ b, (world.inbox a b).length * size tree a b

/-- The nodes ahead of a link are its end, and those that are ahead of the other links there. -/
theorem size_split (back : tree.Behind here sender speaker) :
    size tree sender here = (∑ c ∈ Finset.univ.erase sender, size tree here c) + 1 := by
  have ahead (x : ν) : tree.Behind sender here x ↔ x = here ∨ x ≠ here ∧ tree.next here x ≠ sender := by
    rw [back.symm.sides, Tree.Behind]
    tauto
  have fibre : (∑ c ∈ Finset.univ.erase sender, size tree here c) =
      (Finset.univ.filter fun x => x ≠ here ∧ tree.next here x ≠ sender).card := by
    rw [Finset.card_eq_sum_card_fiberwise (f := tree.next here) (t := Finset.univ.erase sender)]
    · refine Finset.sum_congr rfl fun c other => ?_
      have apart : c ≠ sender := Finset.ne_of_mem_erase other
      rw [size]
      refine congrArg Finset.card (Finset.ext fun x => ?_)
      rw [Finset.mem_filter, Finset.mem_filter, Finset.mem_filter, Tree.Behind]
      constructor
      · rintro ⟨inside, away, rfl⟩
        exact ⟨⟨inside, away, apart⟩, rfl⟩
      · rintro ⟨⟨inside, away, _⟩, next⟩
        exact ⟨inside, away, next⟩
    · intro x inside
      simpa using (Finset.mem_filter.mp inside).2.2
  have whole : (Finset.univ.filter fun x => tree.Behind sender here x) =
      insert here (Finset.univ.filter fun x => x ≠ here ∧ tree.next here x ≠ sender) := by
    ext x
    simp [ahead]
  rw [fibre, size, whole, Finset.card_insert_of_notMem (by simp)]

/-- Handling a message that came over a link leaves less than was on its way. -/
theorem Pending.load_handle (relays : Relays tree take Fit origin (fun message x => must message x = true) may)
    (pending : Pending tree Fit origin must may here (some sender) message world) :
    load tree (world.handle take here (some sender) message) < load tree world + size tree sender here := by
  have fit := pending.fit here
  let sent := (take here (world.node here) (some sender) message).2
  have each (b : ν) : (sent b).length * size tree here b ≤ if b = sender then 0 else size tree here b := by
    obtain single | none := relays.once fit pending.arrives (c := b)
    · have single : sent b = [message] := single
      have inside : message ∈ sent b := single ▸ List.mem_singleton_self message
      have forth : b ≠ sender := fun same => (relays.only fit pending.arrives pending.leads inside).1 (same ▸ rfl)
      have length : (sent b).length = 1 := congrArg List.length single
      rw [length, if_neg forth, Nat.one_mul]
    · have length : (sent b).length = 0 := congrArg List.length none
      rw [length, Nat.zero_mul]
      exact Nat.zero_le _
  have queued : ∑ b, (sent b).length * size tree here b < size tree sender here := by
    calc ∑ b, (sent b).length * size tree here b
        ≤ ∑ b, if b = sender then 0 else size tree here b := Finset.sum_le_sum fun b _ => each b
      _ = ∑ b ∈ Finset.univ.erase sender, size tree here b := by
        rw [Finset.sum_ite, Finset.sum_const_zero, Nat.zero_add, Finset.filter_ne']
      _ < size tree sender here := by
        rw [size_split pending.arrives]
        exact Nat.lt_succ_self _
  have loads : load tree (world.handle take here (some sender) message) =
      load tree world + ∑ b, (sent b).length * size tree here b := by
    have split (a : ν) : (∑ b, ((world.handle take here (some sender) message).inbox a b).length * size tree a b) =
        (∑ b, (world.inbox a b).length * size tree a b) +
          if a = here then ∑ b, (sent b).length * size tree here b else 0 := by
      by_cases same : a = here
      · subst same
        rw [if_pos rfl, ← Finset.sum_add_distrib]
        refine Finset.sum_congr rfl fun b _ => ?_
        simp [World.handle, sent, Nat.add_mul]
      · simp [World.handle, same]
    rw [load, Finset.sum_congr rfl fun a _ => split a, Finset.sum_add_distrib, Finset.sum_ite_eq' Finset.univ here]
    simp [load]
  omega

/-- Taking a message off a link. -/
theorem load_pop (tree : Tree ν) (queued : world.inbox sender here = message :: rest) :
    load tree world = load tree (world.pop sender here rest) + size tree sender here := by
  have each (a b : ν) : (world.inbox a b).length * size tree a b =
      ((world.pop sender here rest).inbox a b).length * size tree a b +
        if a = sender then if b = here then size tree sender here else 0 else 0 := by
    by_cases link : a = sender ∧ b = here
    · obtain ⟨rfl, rfl⟩ := link
      simp [World.pop, queued, Nat.add_mul]
    · rw [← ite_and, if_neg link]
      simp [World.pop, link]
  have both : (∑ a, ∑ b, if a = sender then if b = here then size tree sender here else 0 else 0) =
      size tree sender here := by
    simp
  rw [load, Finset.sum_congr rfl fun a _ => Finset.sum_congr rfl fun b _ => each a b]
  rw [Finset.sum_congr rfl fun a _ => Finset.sum_add_distrib, Finset.sum_add_distrib, both, load]

/-- Every message that is read leaves less to read. -/
theorem Sound.load_read (relays : Relays tree take Fit origin (fun message x => must message x = true) may)
    (sound : Sound tree Fit origin must may world) (queued : world.inbox sender here = message :: rest) :
    load tree (perform take world (.read sender here)) < load tree world := by
  have handled := (sound.pop queued).load_handle relays
  rw [load_pop tree queued]
  simpa [perform, queued] using handled

/-- Left alone from any state, the nodes come to read everything that is on its way. -/
theorem Sound.settles (relays : Relays tree take Fit origin (fun message x => must message x = true) may)
    (sound : Sound tree Fit origin must may world) :
    ∃ final, (network take Fit origin).Run Reading world final ∧ final.spoken = world.spoken ∧ final.Quiet := by
  induction left : load tree world using Nat.strongRecOn generalizing world with
  | ind left ih =>
    by_cases quiet : world.Quiet
    · exact ⟨world, .refl world, rfl, quiet⟩
    · obtain ⟨sender, here, waiting⟩ : ∃ sender here, world.inbox sender here ≠ [] := by
        simpa [World.Quiet] using quiet
      obtain ⟨message, rest, queued⟩ := List.exists_cons_of_ne_nil waiting
      have allowed : (network take Fit origin).possible world (.read sender here) := trivial
      have first : (network take Fit origin).Run Reading world (perform take world (.read sender here)) :=
        .tail (.refl world) allowed ⟨sender, here, rfl⟩
      obtain ⟨final, reached, spoken, still⟩ := ih _ (left ▸ sound.load_read relays queued)
        (sound_perform relays sound (.read sender here) allowed) rfl
      refine ⟨final, first.trans reached, ?_, still⟩
      rw [spoken]
      simp [perform, queued, World.handle, World.pop]

end Settles

end Flood

end SolidIrcd
