import Mathlib.Data.List.Nodup
import Mathlib.Logic.Relation

/-! Copies of a list that a tree of nodes keeps: the root edits its own, items go down one
branch, drops go down all of them, and every node takes what comes from above in the order
in which it was sent. A node may be behind, but it never keeps what the root has dropped. -/

namespace SolidIrcd.Cascade

inductive Change (α : Type) where
  | add (item : α)
  | drop (item : α)

structure Copies (σ α : Type) where
  list : σ → List α
  /-- What is on its way to a node from the one above. -/
  queue : σ → List (Change α)

variable {σ α κ : Type} [DecidableEq κ]

/-- Two items with one key are one item for the lists. -/
def insert (key : α → κ) (list : List α) (item : α) : List α :=
  if key item ∈ list.map key then list else item :: list

def remove (key : α → κ) (list : List α) (item : α) : List α := list.eraseP fun other => key item = key other

def apply (key : α → κ) (list : List α) : Change α → List α
  | .add item => insert key list item
  | .drop item => remove key list item

/-- The list when everything on its way has come. -/
def settle (key : α → κ) (list : List α) (queue : List (Change α)) : List α := queue.foldl (apply key) list

def Dropped (key : α → κ) (item : α) (queue : List (Change α)) : Prop :=
  ∃ other, .drop other ∈ queue ∧ key other = key item

def Below (up : σ → Option σ) : σ → σ → Prop := Relation.ReflTransGen fun above node => up node = some above

/-- A drop of the item is on its way to the node or to one above it. -/
def Recalled (key : α → κ) (up : σ → Option σ) (copies : Copies σ α) (node : σ) (item : α) : Prop :=
  ∃ above, Below up above node ∧ Dropped key item (copies.queue above)

structure Tree (up : σ → Option σ) (root : σ) : Prop where
  top : up root = none
  connected : ∀ node, Below up root node

structure Sound (key : α → κ) (up : σ → Option σ) (root : σ) (copies : Copies σ α) : Prop where
  distinct : ∀ node, node ≠ root → ((copies.list node).map key).Nodup
  /-- A node can only drop what the one above it has. -/
  known : ∀ node above item, up node = some above →
    item ∈ settle key (copies.list node) (copies.queue node) → key item ∈ (copies.list above).map key
  meant : ∀ node item, item ∈ copies.list node → item ∈ copies.list root ∨ Recalled key up copies node item
  coming : ∀ node above item before after, up node = some above →
    copies.queue node = before ++ .add item :: after →
      item ∈ copies.list root ∨ Dropped key item after ∨ Recalled key up copies above item

variable {key : α → κ} {up : σ → Option σ} {root : σ} {copies copies' : Copies σ α}

theorem mem_insert (member : other ∈ insert key list item) : other ∈ list ∨ other = item := by
  unfold insert at member
  split at member
  next => exact .inl member
  next => exact (List.mem_cons.mp member).symm

theorem mem_insert_of_mem (member : other ∈ list) : other ∈ insert key list item := by
  unfold insert
  split
  next => exact member
  next => exact List.mem_cons_of_mem _ member

theorem key_mem_insert (key : α → κ) (list : List α) (item : α) : key item ∈ (insert key list item).map key := by
  unfold insert
  split
  next known => exact known
  next => simp

theorem nodup_insert (distinct : (list.map key).Nodup) : ((insert key list item).map key).Nodup := by
  unfold insert
  split
  next => exact distinct
  next new => exact List.nodup_cons.mpr ⟨new, distinct⟩

theorem mem_of_mem_remove (member : other ∈ remove key list item) : other ∈ list := List.mem_of_mem_eraseP member

theorem nodup_remove (distinct : (list.map key).Nodup) : ((remove key list item).map key).Nodup :=
  (List.eraseP_sublist.map key).nodup distinct

theorem mem_remove_of_ne (member : other ∈ list) (differs : key item ≠ key other) :
    other ∈ remove key list item :=
  (List.mem_eraseP_of_neg (by simpa using differs)).mpr member

theorem remove_of_not_mem (absent : key item ∉ list.map key) : remove key list item = list := by
  apply List.eraseP_of_forall_not
  intro other member same
  exact absent (List.mem_map.mpr ⟨other, member, (of_decide_eq_true same).symm⟩)

theorem not_mem_remove (distinct : (list.map key).Nodup) (item : α) : key item ∉ (remove key list item).map key := by
  induction list with
  | nil => simp [remove]
  | cons head rest ih =>
    rw [List.map_cons, List.nodup_cons] at distinct
    by_cases same : key item = key head
    · simp only [remove, List.eraseP_cons, same, decide_true, cond_true]
      exact distinct.1
    · have rest := ih distinct.2
      simp only [remove, List.eraseP_cons, same, decide_false, cond_false, List.map_cons, List.mem_cons, false_or]
      exact rest

theorem settle_append (key : α → κ) (list : List α) (first second : List (Change α)) :
    settle key list (first ++ second) = settle key (settle key list first) second := by
  simp only [settle, List.foldl_append]

/-- Only what is added can come. -/
theorem mem_settle (member : item ∈ settle key list queue) : item ∈ list ∨ .add item ∈ queue := by
  induction queue generalizing list with
  | nil => exact .inl member
  | cons change queue ih =>
    rcases ih member with here | coming
    · cases change with
      | add other =>
        rcases mem_insert here with old | rfl
        · exact .inl old
        · exact .inr (List.mem_cons_self ..)
      | drop other => exact .inl (mem_of_mem_remove here)
    · exact .inr (List.mem_cons_of_mem _ coming)

/-- What does not stay is dropped. -/
theorem dropped_of_lost (here : key item ∈ list.map key) (lost : key item ∉ (settle key list queue).map key) :
    Dropped key item queue := by
  induction queue generalizing list with
  | nil => exact absurd here lost
  | cons change queue ih =>
    by_cases next : key item ∈ (apply key list change).map key
    · obtain ⟨other, member, same⟩ := ih next lost
      exact ⟨other, List.mem_cons_of_mem _ member, same⟩
    · obtain ⟨kept, member, same⟩ := List.mem_map.mp here
      cases change with
      | add other => exact absurd (List.mem_map.mpr ⟨kept, mem_insert_of_mem member, same⟩) next
      | drop other =>
        refine ⟨other, List.mem_cons_self .., ?_⟩
        by_contra differs
        rw [← same] at differs
        exact next (List.mem_map.mpr ⟨kept, mem_remove_of_ne member differs, same⟩)

theorem nodup_settle (distinct : (list.map key).Nodup) (queue : List (Change α)) :
    ((settle key list queue).map key).Nodup := by
  induction queue generalizing list with
  | nil => exact distinct
  | cons change queue ih =>
    apply ih
    cases change with
    | add item => exact nodup_insert distinct
    | drop item => exact nodup_remove distinct

/-- With fewer items to start from there are fewer in the end. -/
theorem settle_mono (fewer : ∀ item ∈ first, key item ∈ second.map key) (distinct : (first.map key).Nodup)
    (queue : List (Change α)) : ∀ item ∈ settle key first queue, key item ∈ (settle key second queue).map key := by
  induction queue generalizing first second with
  | nil => exact fewer
  | cons change queue ih =>
    cases change with
    | add item =>
      refine ih ?_ (nodup_insert distinct)
      intro other member
      rcases mem_insert member with old | rfl
      · obtain ⟨held, listed, same⟩ := List.mem_map.mp (fewer other old)
        exact List.mem_map.mpr ⟨held, mem_insert_of_mem listed, same⟩
      · exact key_mem_insert key second other
    | drop item =>
      refine ih ?_ (nodup_remove distinct)
      intro other member
      obtain ⟨held, listed, same⟩ := List.mem_map.mp (fewer other (mem_of_mem_remove member))
      refine List.mem_map.mpr ⟨held, mem_remove_of_ne listed ?_, same⟩
      intro dropped
      apply not_mem_remove distinct item
      rw [dropped, same]
      exact List.mem_map_of_mem member

/-- A drop at the end leaves nothing of the item. -/
theorem ne_of_settle_drop (distinct : (list.map key).Nodup)
    (member : other ∈ settle key list (queue ++ [.drop item])) : key other ≠ key item := by
  rw [settle_append] at member
  intro same
  apply not_mem_remove (nodup_settle distinct queue) item
  rw [← same]
  exact List.mem_map_of_mem member

theorem dropped_of_added (queued : queue = before ++ .add item :: after)
    (lost : key item ∉ (settle key list queue).map key) : Dropped key item after := by
  rw [queued, settle_append] at lost
  exact dropped_of_lost (key_mem_insert key _ item) lost

omit [DecidableEq κ] in
theorem Dropped.mono (dropped : Dropped key item queue) (more : ∀ other, .drop other ∈ queue → .drop other ∈ queue') :
    Dropped key item queue' := by
  obtain ⟨other, member, same⟩ := dropped
  exact ⟨other, more other member, same⟩

omit [DecidableEq κ] in
theorem Recalled.mono (recalled : Recalled key up copies node item)
    (more : ∀ node other, .drop other ∈ copies.queue node → .drop other ∈ copies'.queue node) :
    Recalled key up copies' node item := by
  obtain ⟨above, below, dropped⟩ := recalled
  exact ⟨above, below, dropped.mono (more above)⟩

omit [DecidableEq κ] in
theorem Recalled.lower (recalled : Recalled key up copies above item) (child : up node = some above) :
    Recalled key up copies node item := by
  obtain ⟨top, below, dropped⟩ := recalled
  exact ⟨top, below.tail child, dropped⟩

theorem Tree.acyclic (tree : Tree up root) (child : up first = some node) : ¬ Below up first node := by
  have never : ∀ node, Below up root node → ¬ Relation.TransGen (fun above node => up node = some above) node node := by
    intro node below
    induction below with
    | refl =>
      intro cycle
      obtain ⟨last, -, step⟩ := Relation.TransGen.tail'_iff.mp cycle
      rw [tree.top] at step
      cases step
    | tail _ step ih =>
      intro cycle
      obtain ⟨last, reach, back⟩ := Relation.TransGen.tail'_iff.mp cycle
      rw [step] at back
      cases back
      exact ih (.head' step reach)
  intro below
  exact never node (tree.connected node) (.head' child below)

theorem Tree.exists_up (tree : Tree up root) (inner : node ≠ root) : ∃ above, up node = some above := by
  rcases Relation.ReflTransGen.cases_tail (tree.connected node) with same | ⟨above, -, link⟩
  · exact absurd same inner
  · exact ⟨above, link⟩

omit [DecidableEq κ] in
theorem drops_of_next (next : copies.queue node = .add item :: rest) (selfQueue : copies'.queue node = rest)
    (others : ∀ other, other ≠ node → copies'.queue other = copies.queue other) (other : σ) (dropped : α)
    (member : .drop dropped ∈ copies.queue other) : .drop dropped ∈ copies'.queue other := by
  by_cases same : other = node
  · subst same
    rw [next, List.mem_cons] at member
    rw [selfQueue]
    rcases member with first | later
    · cases first
    · exact later
  · rw [others other same]
    exact member

namespace Sound

/-- What stays below a node that none of its children keeps is recalled further up. -/
theorem recalled_above (sound : Sound key up root copies) (child : up first = some top) (below : Below up first node)
    (none : ∀ node other, up node = some top → other ∈ settle key (copies.list node) (copies.queue node) →
      key other ≠ key item)
    (kept : key item ∈ (settle key (copies.list node) (copies.queue node)).map key) :
    ∃ above parent, up node = some parent ∧ Below up first above ∧ Below up above parent ∧
      Dropped key item (copies.queue above) := by
  induction below with
  | refl =>
    obtain ⟨other, member, same⟩ := List.mem_map.mp kept
    exact absurd same (none first other child member)
  | @tail parent node reach step ih =>
    by_cases stays : key item ∈ (settle key (copies.list parent) (copies.queue parent)).map key
    · obtain ⟨above, grand, upper, from', to', dropped⟩ := ih stays
      exact ⟨above, parent, step, from', to'.tail upper, dropped⟩
    · obtain ⟨other, member, same⟩ := List.mem_map.mp kept
      have held := sound.known node parent other step member
      rw [same] at held
      exact ⟨parent, parent, step, reach, .refl, dropped_of_lost held stays⟩

/-- The same of what a node has now. -/
theorem recalled_below (sound : Sound key up root copies) (child : up first = some top) (below : Below up first node)
    (none : ∀ node other, up node = some top → other ∈ settle key (copies.list node) (copies.queue node) →
      key other ≠ key item)
    (has : key item ∈ (copies.list node).map key) :
    ∃ above, Below up first above ∧ Below up above node ∧ Dropped key item (copies.queue above) := by
  by_cases stays : key item ∈ (settle key (copies.list node) (copies.queue node)).map key
  · obtain ⟨above, parent, step, reach, lower, dropped⟩ := sound.recalled_above child below none stays
    exact ⟨above, reach, lower.tail step, dropped⟩
  · exact ⟨node, below, .refl, dropped_of_lost has stays⟩

theorem start (empty : ∀ node, node ≠ root → copies.list node = []) (top : up root = none)
    (quiet : ∀ node, copies.queue node = []) : Sound key up root copies where
  distinct node other := by simp [empty node other]
  known node above item child member := by
    have other : node ≠ root := by
      intro same
      rw [same, top] at child
      cases child
    rw [quiet node, empty node other] at member
    cases member
  meant node item member := by
    by_cases same : node = root
    · exact .inl (same ▸ member)
    · rw [empty node same] at member
      cases member
  coming node above item before after _ queued := by
    rw [quiet node] at queued
    cases before <;> cases queued

/-- The root may add what it likes. -/
theorem grow (sound : Sound key up root copies) (more : ∀ item ∈ copies.list root, item ∈ copies'.list root)
    (others : ∀ node, node ≠ root → copies'.list node = copies.list node) (top : up root = none)
    (queues : copies'.queue = copies.queue) : Sound key up root copies' := by
  have still : ∀ {node item}, Recalled key up copies node item → Recalled key up copies' node item :=
    fun recalled => recalled.mono (by rw [queues]; exact fun _ _ member => member)
  have kept : ∀ node item, item ∈ copies.list node → item ∈ copies'.list node := by
    intro node item member
    by_cases same : node = root
    · subst same
      exact more item member
    · rw [others node same]
      exact member
  refine ⟨?_, ?_, ?_, ?_⟩
  · intro node other
    rw [others node other]
    exact sound.distinct node other
  · intro node above item child member
    have other : node ≠ root := by
      rintro rfl
      rw [top] at child
      cases child
    rw [others node other, queues] at member
    obtain ⟨held, listed, same⟩ := List.mem_map.mp (sound.known node above item child member)
    exact List.mem_map.mpr ⟨held, kept above held listed, same⟩
  · intro node item member
    by_cases same : node = root
    · exact .inl (same ▸ member)
    · rw [others node same] at member
      rcases sound.meant node item member with rooted | recalled
      · exact .inl (more item rooted)
      · exact .inr (still recalled)
  · intro node above item before after child queued
    rw [queues] at queued
    rcases sound.coming node above item before after child queued with rooted | dropped | recalled
    · exact .inl (more item rooted)
    · exact .inr (.inl dropped)
    · exact .inr (.inr (still recalled))

/-- Drops may be sent anywhere; an item goes from a node that has it. -/
theorem send (sound : Sound key up root copies) (extra : σ → List (Change α))
    (passed : ∀ node item, .add item ∈ extra node → ∃ above, up node = some above ∧
      key item ∈ (copies.list above).map key ∧ (item ∈ copies.list root ∨ Recalled key up copies above item)) :
    Sound key up root ⟨copies.list, fun node => copies.queue node ++ extra node⟩ := by
  have still : ∀ {node item}, Recalled key up copies node item →
      Recalled key up ⟨copies.list, fun node => copies.queue node ++ extra node⟩ node item :=
    fun recalled => recalled.mono fun _ _ member => List.mem_append_left _ member
  refine ⟨sound.distinct, ?_, ?_, ?_⟩
  · intro node above item child member
    dsimp only at member
    rw [settle_append] at member
    rcases mem_settle member with old | new
    · exact sound.known node above item child old
    · obtain ⟨sender, linked, held, -⟩ := passed node item new
      rw [child] at linked
      cases linked
      exact held
  · intro node item member
    rcases sound.meant node item member with rooted | recalled
    · exact .inl rooted
    · exact .inr (still recalled)
  · intro node above item before after child queued
    rcases List.append_eq_append_iff.mp queued with ⟨between, first, second⟩ | ⟨between, first, second⟩
    · have new : .add item ∈ extra node := by
        rw [second]
        simp
      obtain ⟨sender, linked, -, held⟩ := passed node item new
      rw [child] at linked
      cases linked
      rcases held with rooted | recalled
      · exact .inl rooted
      · exact .inr (.inr (still recalled))
    · cases between with
      | nil =>
        have new : .add item ∈ extra node := by
          rw [List.nil_append] at second
          rw [← second]
          simp
        obtain ⟨sender, linked, -, held⟩ := passed node item new
        rw [child] at linked
        cases linked
        rcases held with rooted | recalled
        · exact .inl rooted
        · exact .inr (.inr (still recalled))
      | cons change between =>
        rw [List.cons_append, List.cons.injEq] at second
        obtain ⟨rfl, behind⟩ := second
        rcases sound.coming node above item before between child first with rooted | dropped | recalled
        · exact .inl rooted
        · exact .inr (.inl (dropped.mono fun other member => behind ▸ List.mem_append_left _ member))
        · exact .inr (.inr (still recalled))

/-- The item that comes next is the root's, or will be dropped, also when it has been read. -/
theorem next_meant (sound : Sound key up root copies) (child : up node = some above)
    (next : copies.queue node = .add item :: rest) (rooted : copies'.list root = copies.list root)
    (selfQueue : copies'.queue node = rest)
    (drops : ∀ other dropped, .drop dropped ∈ copies.queue other → .drop dropped ∈ copies'.queue other) :
    item ∈ copies'.list root ∨ Recalled key up copies' node item := by
  rcases sound.coming node above item [] rest child next with meant | dropped | recalled
  · exact .inl (rooted ▸ meant)
  · exact .inr ⟨node, .refl, selfQueue ▸ dropped⟩
  · exact .inr ((recalled.mono drops).lower child)

/-- A node takes the item that comes next, or does without it. -/
theorem take (sound : Sound key up root copies) (child : up node = some above)
    (next : copies.queue node = .add item :: rest)
    (self : copies'.list node = insert key (copies.list node) item ∨ copies'.list node = copies.list node)
    (selfQueue : copies'.queue node = rest)
    (others : ∀ other, other ≠ node → copies'.list other = copies.list other ∧ copies'.queue other = copies.queue other)
    (inner : node ≠ root) : Sound key up root copies' := by
  have drops := drops_of_next next selfQueue fun other same => (others other same).2
  have rooted : copies'.list root = copies.list root := (others root inner.symm).1
  have settled : ∀ other, ∀ thing ∈ settle key (copies'.list other) (copies'.queue other),
      key thing ∈ (settle key (copies.list other) (copies.queue other)).map key := by
    intro other thing member
    by_cases same : other = node
    · subst same
      rw [selfQueue] at member
      rw [next]
      rcases self with taken | left
      · rw [taken] at member
        exact List.mem_map_of_mem member
      · rw [left] at member
        refine settle_mono ?_ (sound.distinct other inner) rest thing member
        exact fun held listed => List.mem_map_of_mem (mem_insert_of_mem listed)
    · rw [(others other same).1, (others other same).2] at member
      exact List.mem_map_of_mem member
  have kept : ∀ other thing, thing ∈ copies.list other → thing ∈ copies'.list other := by
    intro other thing member
    by_cases same : other = node
    · subst same
      rcases self with taken | left
      · rw [taken]
        exact mem_insert_of_mem member
      · rw [left]
        exact member
    · rw [(others other same).1]
      exact member
  refine ⟨?_, ?_, ?_, ?_⟩
  · intro other below
    by_cases same : other = node
    · subst same
      rcases self with taken | left
      · rw [taken]
        exact nodup_insert (sound.distinct other below)
      · rw [left]
        exact sound.distinct other below
    · rw [(others other same).1]
      exact sound.distinct other below
  · intro other parent thing link member
    obtain ⟨old, settles, equal⟩ := List.mem_map.mp (settled other thing member)
    obtain ⟨held, listed, same⟩ := List.mem_map.mp (sound.known other parent old link settles)
    exact List.mem_map.mpr ⟨held, kept parent held listed, same.trans equal⟩
  · intro other thing member
    rw [rooted]
    have before : thing ∈ copies.list other ∨ other = node ∧ thing = item := by
      by_cases same : other = node
      · subst same
        rcases self with taken | left
        · rw [taken] at member
          rcases mem_insert member with old | new
          · exact .inl old
          · exact .inr ⟨rfl, new⟩
        · exact .inl (left ▸ member)
      · rw [(others other same).1] at member
        exact .inl member
    rcases before with old | ⟨rfl, rfl⟩
    · rcases sound.meant other thing old with meant | recalled
      · exact .inl meant
      · exact .inr (recalled.mono drops)
    · exact rooted ▸ sound.next_meant child next rooted selfQueue drops
  · intro other parent thing before after link queued
    rw [rooted]
    have earlier : ∃ ahead, copies.queue other = ahead ++ .add thing :: after := by
      by_cases same : other = node
      · subst same
        rw [selfQueue] at queued
        exact ⟨.add item :: before, by rw [next, queued, List.cons_append]⟩
      · rw [(others other same).2] at queued
        exact ⟨before, queued⟩
    obtain ⟨ahead, whole⟩ := earlier
    rcases sound.coming other parent thing ahead after link whole with meant | dropped | recalled
    · exact .inl meant
    · exact .inr (.inl dropped)
    · exact .inr (.inr (recalled.mono drops))

/-- A node drops what none of its children will have. -/
theorem withdraw (sound : Sound key up root copies) (tree : Tree up root)
    (lacking : ∀ child other, up child = some node →
      other ∈ settle key (copies.list child) (copies.queue child) → key other ≠ key item)
    (self : copies'.list node = remove key (copies.list node) item)
    (selfQueue : node = root ∧ copies'.queue node = copies.queue node ∨
      node ≠ root ∧ copies.queue node = .drop item :: copies'.queue node)
    (others : ∀ other, other ≠ node → copies'.list other = copies.list other ∧ copies'.queue other = copies.queue other) :
    Sound key up root copies' := by
  have settled : ∀ other, other ≠ root → settle key (copies'.list other) (copies'.queue other) =
      settle key (copies.list other) (copies.queue other) := by
    intro other inner
    by_cases same : other = node
    · subst same
      rcases selfQueue with ⟨rooted, -⟩ | ⟨-, next⟩
      · exact absurd rooted inner
      · rw [next, self]
        rfl
    · rw [(others other same).1, (others other same).2]
  have elsewhere : ∀ {thing above}, above ≠ node → Dropped key thing (copies.queue above) →
      Dropped key thing (copies'.queue above) := by
    intro thing above other dropped
    rw [(others above other).2]
    exact dropped
  -- A drop that is still on its way, unless it was this one.
  have still : ∀ {other thing}, Recalled key up copies other thing →
      Recalled key up copies' other thing ∨ key thing = key item ∧ Below up node other := by
    intro other thing recalled
    obtain ⟨above, below, dropped⟩ := recalled
    by_cases same : above = node
    · subst same
      rcases selfQueue with ⟨-, queue⟩ | ⟨-, next⟩
      · exact .inl ⟨above, below, queue ▸ dropped⟩
      · obtain ⟨held, member, equal⟩ := dropped
        rw [next, List.mem_cons] at member
        rcases member with first | later
        · cases first
          exact .inr ⟨equal.symm, below⟩
        · exact .inl ⟨above, below, held, later, equal⟩
    · exact .inl ⟨above, below, elsewhere same dropped⟩
  have rescue : ∀ {other thing}, key thing = key item → Below up node other → other ≠ node →
      thing ∈ copies.list other → Recalled key up copies' other thing := by
    intro other thing equal below differs member
    rcases Relation.ReflTransGen.cases_head below with same | ⟨first, child, reach⟩
    · exact absurd same.symm differs
    · obtain ⟨above, start, lower, dropped⟩ := sound.recalled_below child reach
        (fun child other link settled => equal ▸ lacking child other link settled) (List.mem_map_of_mem member)
      refine ⟨above, lower, elsewhere ?_ dropped⟩
      rintro rfl
      exact tree.acyclic child start
  have root_or : ∀ {other thing}, thing ∈ copies.list root →
      thing ∈ copies'.list root ∨ key thing = key item ∧ Below up node other := by
    intro other thing member
    by_cases same : root = node
    · subst same
      by_cases equal : key thing = key item
      · exact .inr ⟨equal, tree.connected other⟩
      · exact .inl (self ▸ mem_remove_of_ne member (Ne.symm equal))
    · exact .inl ((others root same).1 ▸ member)
  refine ⟨?_, ?_, ?_, ?_⟩
  · intro other inner
    by_cases same : other = node
    · subst same
      rw [self]
      exact nodup_remove (sound.distinct other inner)
    · rw [(others other same).1]
      exact sound.distinct other inner
  · intro child parent thing link member
    have inner : child ≠ root := by
      rintro rfl
      rw [tree.top] at link
      cases link
    rw [settled child inner] at member
    have held := sound.known child parent thing link member
    by_cases same : parent = node
    · subst same
      obtain ⟨copy, listed, equal⟩ := List.mem_map.mp held
      rw [self]
      refine List.mem_map.mpr ⟨copy, mem_remove_of_ne listed ?_, equal⟩
      intro dropped
      exact lacking child thing link member (equal.symm.trans dropped.symm)
    · rw [(others parent same).1]
      exact held
  · intro other thing member
    by_cases rooted : other = root
    · exact .inl (rooted ▸ member)
    have old : thing ∈ copies.list other ∧ (other = node → key thing ≠ key item) := by
      by_cases same : other = node
      · subst same
        rw [self] at member
        refine ⟨mem_of_mem_remove member, fun _ equal => ?_⟩
        apply not_mem_remove (sound.distinct other rooted) item
        rw [← equal]
        exact List.mem_map_of_mem member
      · rw [(others other same).1] at member
        exact ⟨member, fun equal => absurd equal same⟩
    have saved : key thing = key item ∧ Below up node other → Recalled key up copies' other thing :=
      fun lost => rescue lost.1 lost.2 (fun same => old.2 same lost.1) old.1
    rcases sound.meant other thing old.1 with meant | recalled
    · exact (root_or meant).imp_right saved
    · exact .inr ((still recalled).elim id saved)
  · intro child parent thing before after link queued
    obtain ⟨ahead, whole⟩ : ∃ ahead, copies.queue child = ahead ++ .add thing :: after := by
      by_cases same : child = node
      · subst same
        rcases selfQueue with ⟨-, queue⟩ | ⟨-, next⟩
        · exact ⟨before, queue ▸ queued⟩
        · exact ⟨.drop item :: before, by rw [next, queued, List.cons_append]⟩
      · rw [(others child same).2] at queued
        exact ⟨before, queued⟩
    have saved : key thing = key item ∧ Below up node parent →
        Dropped key thing after ∨ Recalled key up copies' parent thing := by
      intro lost
      by_cases stays : key thing ∈ (settle key (copies.list child) (copies.queue child)).map key
      · rcases Relation.ReflTransGen.cases_head (lost.2.tail link) with same | ⟨first, start, reach⟩
        · subst same
          exact absurd lost.2 (tree.acyclic link)
        · obtain ⟨above, up', link', reach', lower, dropped⟩ := sound.recalled_above start reach
            (fun child other link settled => lost.1 ▸ lacking child other link settled) stays
          rw [link] at link'
          cases link'
          refine .inr ⟨above, lower, elsewhere ?_ dropped⟩
          rintro rfl
          exact tree.acyclic start reach'
      · exact .inl (dropped_of_added whole stays)
    rcases sound.coming child parent thing ahead after link whole with meant | dropped | recalled
    · exact (root_or meant).imp_right saved
    · exact .inr (.inl dropped)
    · rcases still recalled with same | lost
      · exact .inr (.inr same)
      · exact .inr (saved lost)

/-- A node that has not got what it is to drop need not pass that on. -/
theorem lacking (sound : Sound key up root copies) (absent : key item ∉ (copies.list node).map key) (child : σ)
    (other : α) (link : up child = some node) (settled : other ∈ settle key (copies.list child) (copies.queue child)) :
    key other ≠ key item := fun same => absent (same ▸ sound.known child node other link settled)

/-- When nothing is on its way, nobody has more than the root. -/
theorem quiet (sound : Sound key up root copies) (empty : ∀ node, copies.queue node = [])
    (member : item ∈ copies.list node) : item ∈ copies.list root := by
  rcases sound.meant node item member with rooted | ⟨above, -, other, dropped, -⟩
  · exact rooted
  · rw [empty above] at dropped
    cases dropped

end Sound

end SolidIrcd.Cascade
