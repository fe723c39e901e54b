import SolidIrcd.Send.Conserve

/-! Any number of queues that put, take and share in any order, against the bytes each of
them would hold on its own. -/

namespace SolidIrcd.Sbuf

open Scan (Text)
open Function (update)
open Recv (isEol)

/-- The bytes of each queue when it is only ever changed by its own operations, and the
bytes of the messages that are being shared. -/
structure Ledger (n : Nat) where
  bytes : Fin n → Text
  shares : Handle → Option Text

/-- What an action means; `handle` is where a new share is found. -/
def Ledger.perform (ledger : Ledger n) (handle : Handle) : Action n → Ledger n
  | .beginShare theData => { ledger with shares := update ledger.shares handle (some (shareText theData)) }
  | .endShare shares => { ledger with shares := fun buf => if shares.contains buf then none else ledger.shares buf }
  | .putShare q buf =>
    { ledger with bytes := update ledger.bytes q (ledger.bytes q ++ (ledger.shares buf).getD []) }
  | .put q theData => { ledger with bytes := update ledger.bytes q (ledger.bytes q ++ theData) }
  | .delete q theLength => { ledger with bytes := update ledger.bytes q ((ledger.bytes q).drop theLength) }
  | .flush q => { ledger with bytes := update ledger.bytes q ((ledger.bytes q).dropWhile isEol) }
  | .getmsg q theLength => { ledger with bytes := update ledger.bytes q (Recv.getmsg (ledger.bytes q) theLength).2 }
  | .get q theLength => { ledger with bytes := update ledger.bytes q ((ledger.bytes q).drop theLength) }

def Ledger.start (n : Nat) : Ledger n := ⟨fun _ => [], fun _ => none⟩

/-- The handle `sbuf_begin_share` gives out. -/
def Server.handle (server : Server n) : Action n → Handle
  | .beginShare theData => (server.arena.sbufBeginShare theData).1
  | _ => (.small, 0)

/-- The server with its ledger. -/
def ledgers (n : Nat) : Machine (Server n × Ledger n) (Action n) where
  perform := fun state action => (state.1.perform action, state.2.perform (state.1.handle action) action)
  possible := fun state action => state.1.Possible action

/-- What is put does not land in a buffer that is being shared and has no second node yet. -/
def Server.Apart (server : Server n) : Action n → Prop
  | .put q theData => server.Fits (.put q theData) ∧ ∀ last, (server.queues q).nodes.getLast? = some last →
      (server.arena.buffers last.buf).refcount ≤ 1 → (server.arena.buffers last.buf).shared = true → theData = []
  | _ => True

/-- Each queue holds the bytes of its own operations. -/
structure Server.Matches (server : Server n) (ledger : Ledger n) : Prop where
  kept : server.Kept
  content : ∀ q, server.arena.content (server.queues q).nodes = ledger.bytes q
  shares : ∀ buf ∈ server.shares, ledger.shares buf = some (server.arena.buffers buf).data

section

variable {n : Nat} {server : Server n} {ledger : Ledger n}

theorem Server.Apart.fits {action : Action n} (apart : server.Apart action) : server.Fits action := by
  cases action with
  | put q theData => exact apart.1
  | _ => trivial

theorem Server.Matches.keeps (matches' : server.Matches ledger) (q : Fin n) :
    server.arena.Keeps (server.queues q) (server.others q) (· ∈ server.shares) (ledger.bytes q) :=
  matches'.content q ▸ matches'.kept.keeps q

/-- One queue has changed, and neither the others nor the shares have noticed. -/
theorem Server.Matches.set (matches' : server.Matches ledger) (q : Fin n) {after : Arena × Queue} {bytes : Text}
    (done : Done server.arena (server.others q) (· ∈ server.shares) bytes after)
    (same : ∀ buf ∈ server.shares, (after.1.buffers buf).data = (server.arena.buffers buf).data) :
    (server.set q after).Matches { ledger with bytes := update ledger.bytes q bytes } := by
  refine ⟨matches'.kept.set q done, fun other => ?_, fun buf member => ?_⟩
  · by_cases equal : other = q
    · subst equal
      simpa [Server.set] using done.keeps.content
    · simpa [Server.set, equal, content_others done equal] using matches'.content other
  · exact (matches'.shares buf member).trans (congrArg some (same buf member).symm)

theorem Server.Matches.moves (matches' : server.Matches ledger) (q : Fin n) {after : Arena × Queue} {bytes : Text}
    (reads : Reads server.arena (server.others q) (· ∈ server.shares) bytes after) :
    (server.set q after).Matches { ledger with bytes := update ledger.bytes q bytes } :=
  matches'.set q reads.done fun buf _ => reads.data buf

theorem Server.Matches.perform (matches' : server.Matches ledger) (action : Action n) (possible : server.Possible action)
    (apart : server.Apart action) :
    (server.perform action).Matches (ledger.perform (server.handle action) action) := by
  cases action with
  | beginShare theData =>
    obtain ⟨-, text, same⟩ := matches'.kept.sound.sbufBeginShare theData
    refine ⟨matches'.kept.perform possible apart.fits, fun q => ?_, fun buf member => ?_⟩
    · refine (content_congr fun node member => ?_).trans (matches'.content q)
      exact live_congr (congrArg Buffer.data (same _ (.of_mem (mem_all.mpr ⟨q, member⟩))).1)
    · change update ledger.shares (server.arena.sbufBeginShare theData).1 (some (shareText theData)) buf = _
      rcases List.mem_cons.mp member with rfl | before
      · rw [Function.update_self]
        exact congrArg some text.symm
      · obtain ⟨kept, differs⟩ := same buf (.inr before)
        rw [Function.update_of_ne differs]
        exact (matches'.shares buf before).trans (congrArg (some ∘ Buffer.data) kept.symm)
  | endShare shares =>
    obtain ⟨-, same⟩ := endShare_sound shares matches'.kept.sound possible.1 possible.2
    refine ⟨matches'.kept.perform possible apart.fits, fun q => ?_, fun buf member => ?_⟩
    · exact (content_congr fun node _ => live_congr (same node.buf)).trans (matches'.content q)
    · obtain ⟨before, still⟩ := List.mem_filter.mp member
      have open' : ¬ shares.contains buf = true := fun found => of_decide_eq_true still (List.mem_of_elem_eq_true found)
      exact (if_neg open').trans ((matches'.shares buf before).trans (congrArg some (same buf).symm))
  | putShare q buf =>
    have reads := (matches'.keeps q).sbufPutShare possible
    have text : (ledger.shares buf).getD [] = (server.arena.buffers buf).data := by
      rw [matches'.shares buf possible, Option.getD_some]
    rw [← text] at reads
    exact matches'.moves q reads
  | put q theData =>
    obtain ⟨done, same⟩ := (matches'.keeps q).sbufPut apart.1
    refine matches'.set q done (same fun last found few open' => apart.2 last found few ?_)
    have member : last ∈ server.all := mem_all.mpr ⟨q, List.mem_of_getLast? found⟩
    exact (matches'.kept.sound.fits last.buf (.of_mem member)).shared.mpr open'
  | delete q theLength => exact matches'.moves q ((matches'.keeps q).sbufDelete theLength)
  | flush q => exact matches'.moves q (matches'.keeps q).sbufFlush
  | getmsg q theLength => exact matches'.moves q ((matches'.keeps q).sbufGetmsg theLength)
  | get q theLength => exact matches'.moves q ((matches'.keeps q).getLoop theLength theLength [] (Nat.le_refl _))

theorem Server.matches_start (n : Nat) (memory : Handle → Buffer) : (Server.start n memory).Matches (.start n) :=
  ⟨.start n memory, fun _ => rfl, nofun⟩

end

/-- Whatever the queues do, each holds the bytes that its own operations leave, as long as nothing is put behind a
message that is still being shared, and not nothing behind a buffer that others have too. -/
theorem queues_fifo (memory : Handle → Buffer)
    (run : (ledgers n).Run (fun state => state.1.Apart) (.start n memory, .start n) state) (q : Fin n) :
    state.1.arena.content (state.1.queues q).nodes = state.2.bytes q ∧
      (state.1.queues q).length = (state.2.bytes q).length := by
  have matches' : state.1.Matches state.2 :=
    run.invariant (fun state => state.1.Matches state.2)
      (fun _ action possible apart matches' => matches'.perform action possible apart) (Server.matches_start n memory)
  exact ⟨matches'.content q, (matches'.keeps q).length⟩

/-- Bytes for which there is room in the last buffer. -/
theorem sbufPut_inPlace {arena : Arena} {theBuf : Queue} {last : Node} {theData : Text}
    (found : theBuf.nodes.getLast? = some last) (few : (arena.buffers last.buf).refcount ≤ 1)
    (room : theData.length ≤ arena.room last) :
    arena.sbufPut theBuf theData = (arena.append last.buf theData, ⟨theBuf.length + theData.length, theBuf.nodes⟩) := by
  have single : ¬ (arena.buffers last.buf).refcount > 1 := by omega
  have nothing (arena : Arena) (nodes : List Node) : arena.putLoop nodes [] = (arena, nodes) := by
    rw [Arena.putLoop]
    simp
  simp only [Arena.sbufPut, found, if_neg single, Arena.putOnto, List.take_of_length_le room,
    List.drop_eq_nil_of_le room, nothing]

/-- A message is shared with the first of two queues, which gets a line of its own behind it; then the second. -/
def sharing (between : List (Action 2)) : List (Action 2) :=
  .beginShare "hi".toList :: .putShare 0 (.small, 0) :: between

def shared : Server 2 × Ledger 2 := (sharing []).foldl (ledgers 2).perform (.start 2 blank, .start 2)

theorem shared_fifo : shared.1.arena.content (shared.1.queues 0).nodes = "hi\r\n".toList := by
  have run : (ledgers 2).Run (fun state => state.1.Apart) (.start 2 blank, .start 2) shared :=
    .of_list (sharing []) (.refl _) ⟨trivial, trivial, List.mem_cons_self, trivial, trivial⟩
  exact (queues_fifo blank run 0).1.trans rfl

/-- The first queue gets one more byte while the message is being shared, and the
second queue gets it too. -/
theorem crossed_shares : ∃ state, (ledgers 2).Run Machine.Any (.start 2 blank, .start 2) state ∧
    state.2.bytes 1 = "hi\r\n".toList ∧
    state.1.arena.content (state.1.queues 1).nodes = "hi\r\nx".toList := by
  have found : (shared.1.queues 0).nodes.getLast? = some ⟨0, (.small, 0), 0⟩ := rfl
  have few : (shared.1.arena.buffers (.small, 0)).refcount ≤ 1 := by decide
  have room : "x".toList.length ≤ shared.1.arena.room ⟨0, (.small, 0), 0⟩ := by decide
  have put := sbufPut_inPlace found few room
  have run : (ledgers 2).Run Machine.Any (.start 2 blank, .start 2)
      ((sharing [.put 0 "x".toList, .putShare 1 (.small, 0)]).foldl (ledgers 2).perform (.start 2 blank, .start 2)) :=
    .of_list (sharing [.put 0 "x".toList, .putShare 1 (.small, 0)]) (.refl _)
      ⟨trivial, trivial, List.mem_cons_self, trivial, trivial, trivial, List.mem_cons_self, trivial, trivial⟩
  refine ⟨_, run, rfl, ?_⟩
  change ((ledgers 2).perform ((ledgers 2).perform shared (.put 0 "x".toList)) (.putShare 1 (.small, 0))).1.arena.content
    (((ledgers 2).perform ((ledgers 2).perform shared (.put 0 "x".toList)) (.putShare 1 (.small, 0))).1.queues 1).nodes = _
  simp only [ledgers, Server.perform, put]
  decide

end SolidIrcd.Sbuf
