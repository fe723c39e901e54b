import SolidIrcd.Lib.Hops
import SolidIrcd.Parse.Params
import SolidIrcd.UserBan.SimLedger

/-! SQLINE and SGLINE between servers: the lines with which `send_simbans` tells a new link about the permanent network
bans, and what `m_sqline` and `m_sgline` make of them and send on. -/

namespace SolidIrcd.SimBan

open Scan (Text)
open Mask (isWild)
open Parse (Word)
open UserBan (hostHash hashSize)

/-- `:%s SQLINE %s :%s`. -/
def sqlineLine (sptr mask reason : Text) : Text := ':' :: sptr ++ " SQLINE ".toList ++ mask ++ " :".toList ++ reason

/-- `:%s SGLINE %d :%s:%s`. -/
def sglineLine (sptr : Text) (len : Int) (mask reason : Text) : Text :=
  ':' :: sptr ++ " SGLINE ".toList ++ Decimal.print len ++ " :".toList ++ mask ++ ':' :: reason

/-- The line about a ban that is on a list already. -/
def Ban.line (me : Text) (ban : Ban) : Text :=
  if ban.list = .gcos then sglineLine me ban.mask.length ban.mask (ban.reason.getD [])
  else sqlineLine me ban.mask (ban.reason.getD [])

/-- The bans that the two loops of `send_simbans` come to a line for. -/
def Store.simbans (store : Store) (list : BanList) (flags : Flags) : List Ban :=
  ((List.range hashSize).map (Slot.hash list) ++ [Slot.wild list]).flatMap fun slot =>
    (store.lists slot).filter fun ban => !ban.flags.temporary && (ban.list == list && ban.flags.has flags)

/-- `send_simbans`. -/
def Store.sendSimbans (store : Store) (me : Text) (list : BanList) (flags : Flags) : List Text :=
  (store.simbans list flags).map (Ban.line me)

/-- What `m_server_estab` has to say about the bans. -/
def Store.burst (store : Store) (me : Text) : List Text :=
  store.sendSimbans me .chan { network := true } ++ store.sendSimbans me .nick { network := true } ++
    store.sendSimbans me .gcos { network := true }

/-- What `send_message` leaves of a line to a server; a line in a shared buffer is cut one sign earlier. -/
def onLink (shared : Bool) (line : Text) : Text := line.take (if shared then 510 else 511)

/-- The line that `m_sqline` sends on. -/
def sqlineOn (sptr mask : Text) (reason : Option Text) : Option Text :=
  (makeSimpleban (.ofMask mask) { network := true } mask).map fun _ => sqlineLine sptr mask (reasonOr reason "Reserved")

/-- The line that `m_sgline` sends on. -/
def sglineOn (sptr len text : Text) : Option Text :=
  match splitSgline (Decimal.atoi len) text with
  | none => none
  | some (mask, reason) =>
    (makeSimpleban .gcos { network := true } mask).map fun _ =>
      sglineLine sptr (Decimal.atoi len) mask (reasonOr (some reason) "Reserved")

/-- A server, between the one its lines come from and the one it sends them on to. -/
structure Server where
  name : Text
  named : name ≠ []
  solid : ' ' ∉ name
  short : name.length ≤ hostLen
  /-- The name of the server that `find_client` finds under a prefix. -/
  known : Text → Option Text
  /-- A link onwards that is neither compressed nor encrypted takes its lines from shared buffers. -/
  shares : Bool
  store : Store

/-- A line with a prefix, as far as SQLINE and SGLINE go; with what is sent on. -/
def Server.take (server : Server) (line : Text) : Server × List Text :=
  let words := Parse.words line
  match server.known (words.sender.take hostLen) with
  | none => (server, [])
  | some sptr =>
    if words.command = "SQLINE".toList then
      match words.parv with
      | [] => (server, [])
      | mask :: more =>
        ({ server with store := server.store.mSqline mask more.head? },
          (sqlineOn sptr mask more.head?).toList.map (onLink server.shares))
    else if words.command = "SGLINE".toList then
      match words.parv with
      | len :: text :: _ =>
        ({ server with store := server.store.mSgline len text },
          (sglineOn sptr len text).toList.map (onLink server.shares))
      | _ => (server, [])
    else (server, [])

/-- The lines that a new link gets. -/
def Server.lines (server : Server) : List Text := (server.store.burst server.name).map (onLink false)

/-- A permanent network ban. -/
def Ban.standing (ban : Ban) : Bool := ban.flags.network && !ban.flags.temporary

/-- What two bans have in common that are one for `mycmp`. -/
def Ban.key (ban : Ban) : BanList × Text := (ban.list, ban.mask.map toUpper)

/-- The permanent network bans of a store: type and mask, whatever the case. -/
def Store.nets (store : Store) : Set (BanList × Text) :=
  { key | ∃ ban, store.lists.Holds ban ∧ ban.standing = true ∧ ban.key = key }

/-- What a line can carry: nick and channel masks as words, and no line beyond the limit. -/
structure Server.Sendable (server : Server) : Prop where
  words : ∀ ban, server.store.lists.Holds ban → ban.standing = true → ban.list ≠ .gcos →
    ' ' ∉ ban.mask ∧ ban.mask.head? ≠ some ':'
  short : ∀ line ∈ server.store.burst server.name, line.length ≤ 510

/-! ### What a store can hold -/

/-- The ban as another end makes it. -/
def Ban.fresh (ban : Ban) : Ban := { list := ban.list, flags := ban.flags, mask := ban.mask }

/-- A permanent network ban is what its own line would make. -/
structure Ban.Sound (ban : Ban) : Prop where
  made : makeSimpleban ban.list { network := true } ban.mask = some ban.fresh
  listed : ban.list = .gcos ∨ ban.list = .ofMask ban.mask
  reasoned : ∃ reason ≠ [], ban.reason = some reason

structure Store.Sound (store : Store) : Prop where
  filed : store.lists.Filed fun ban => some ban.slot
  bans : ∀ ban, store.lists.Holds ban → ban.standing = true → ban.Sound

variable {store : Store}

theorem Store.Sound.empty (now : Int) : (Store.empty now).Sound where
  filed := Shelf.Filed.empty
  bans := fun _ held => absurd held Shelf.holds_empty

theorem Store.Sound.addSimban (sound : store.Sound) (ban : Ban) (new : ban.standing = true → ban.Sound) :
    (store.addSimban ban).Sound where
  filed := sound.filed.put rfl
  bans := by
    intro other held standing
    obtain rfl | old := Shelf.holds_put.mp held
    · exact new standing
    · exact sound.bans other old standing

theorem Store.Sound.addNew (sound : store.Sound)
    (new : ∀ ban, made = some ban → ban.standing = true →
      Ban.Sound { ban with reason := some reason, timeset := store.now }) :
    (store.addNew made reason).Sound := by
  unfold Store.addNew
  cases made with
  | none => exact sound
  | some ban =>
    dsimp only
    cases store.findSimbanExact ban with
    | none => exact sound.addSimban { ban with reason := some reason, timeset := store.now } (new ban rfl)
    | some other => exact sound

/-- A removal only makes temporary bans. -/
theorem Store.Sound.removeWhere (sound : store.Sound) (list : BanList) (hit : Ban → Bool) :
    (store.removeWhere list hit).Sound where
  filed := sound.filed.revise (fun ban => congrArg some (Ban.removeIf_keeps store.now hit ban).slot) _
  bans := by
    intro ban held standing
    obtain ⟨slot, old, here, is⟩ := Shelf.holds_revise.mp held
    have same : old = ban := by
      split at is
      · unfold Ban.removeIf at is
        split at is
        · simp [← is, Ban.disable, Ban.standing] at standing
        · exact is
      · exact is
    exact sound.bans ban ⟨slot, same ▸ here⟩ standing

theorem reasonOr_ne_nil (reason : Option Text) : reasonOr reason "Reserved" ≠ [] := by
  unfold reasonOr
  split
  · decide
  · decide
  next reason filled => exact filled

/-- The ban that a line makes. -/
theorem sound_made (made : makeSimpleban list { network := true } mask = some ban)
    (listed : list = .gcos ∨ list = .ofMask mask) (filled : reason ≠ []) (timeset : Int) :
    Ban.Sound { ban with reason := some reason, timeset := timeset } := by
  have is := makeSimpleban_some made
  subst is
  exact ⟨made, listed, reason, filled, rfl⟩

theorem Store.Sound.mSqline (sound : store.Sound) (mask : Text) (reason : Option Text) :
    (store.mSqline mask reason).Sound :=
  sound.addNew fun _ made _ => sound_made made (.inr rfl) (reasonOr_ne_nil reason) _

theorem Store.Sound.mSgline (sound : store.Sound) (len text : Text) : (store.mSgline len text).Sound := by
  unfold Store.mSgline
  cases splitSgline (Decimal.atoi len) text with
  | none => exact sound
  | some given => exact sound.addNew fun _ made _ => sound_made made (.inl rfl) (reasonOr_ne_nil _) _

/-- A ban of this server's own is no network ban. -/
theorem not_standing_of_made (made : makeSimpleban list flags mask = some ban) (own : flags.network = false)
    (reason : Option Text) (timeset duration : Int) :
    Ban.standing { ban with reason := reason, timeset := timeset, duration := duration } = false := by
  rw [makeSimpleban_some made]
  simp [Ban.standing, own]

theorem Store.Sound.confaddRestrict (sound : store.Sound) (list : BanList) (mask : Text) (reason : Option Text) :
    (store.confaddRestrict list mask reason).Sound := by
  refine sound.addNew fun ban made standing => ?_
  have own := not_standing_of_made made rfl ban.reason ban.timeset ban.duration
  exact absurd standing (by rw [own]; decide)

theorem Store.Sound.mSvshold (sound : store.Sound) (mask length : Text) (reason : Option Text) :
    (store.mSvshold mask length reason).Sound := by
  unfold Store.mSvshold
  cases made : heldBan mask with
  | none => exact sound
  | some ban =>
    have own := not_standing_of_made made rfl
    dsimp only
    cases found : store.findSimbanExact ban with
    | none =>
      dsimp only
      split
      · exact sound.addSimban _ fun standing => absurd standing (by rw [own]; decide)
      · exact sound
    | some oban =>
      constructor
      · refine sound.filed.amend ?_ ban.slot
        intro old held same changed
        split at changed
        · cases changed
        · obtain rfl := Option.some.inj changed
          rfl
      · intro held ⟨slot, member⟩ standing
        unfold Shelf.amend at member
        dsimp only at member
        split at member
        · obtain old | ⟨old, here, same, changed⟩ := Shelf.mem_replaceFirst member
          · exact sound.bans held ⟨_, old⟩ standing
          · split at changed
            · cases changed
            · obtain rfl := Option.some.inj changed
              have flags := (Ban.same_iff.mp same).2.1
              have network : ban.flags.network = false := by rw [makeSimpleban_some made]
              simp [Ban.standing, flags, network] at standing
        · exact sound.bans held ⟨slot, member⟩ standing

theorem Store.Sound.perform (sound : store.Sound) (action : Action) : (store.perform action).Sound := by
  cases action with
  | sqline mask reason => exact sound.mSqline mask reason
  | unsqline params =>
    change (store.mUnsqline params).Sound
    unfold Store.mUnsqline
    split
    · exact sound
    · split
      · exact (sound.removeWhere _ _).removeWhere _ _
      · exact sound.removeWhere _ _
  | sgline len text => exact sound.mSgline len text
  | unsgline params =>
    change (store.mUnsgline params).Sound
    unfold Store.mUnsgline
    split
    · exact sound
    · exact sound.removeWhere _ _
  | restrict list mask reason => exact sound.confaddRestrict list mask reason
  | svshold mask length reason => exact sound.mSvshold mask length reason
  | removeFlags list flags nflags => exact sound.removeWhere _ _
  | removeMask list flags mask wild => exact sound.removeWhere _ _
  | expire =>
    refine ⟨sound.filed.discard _, ?_⟩
    intro ban held
    exact sound.bans ban (Shelf.holds_discard.mp held).1
  | tick seconds => exact ⟨sound.filed, sound.bans⟩

theorem Store.Sound.run (run : machine.Run Machine.Any (.empty time) store) : store.Sound :=
  run.invariant Store.Sound (fun _ action _ _ sound => sound.perform action) (.empty time)

/-- The loops come to every permanent network ban. -/
theorem Store.Sound.mem_simbans (sound : store.Sound) (list : BanList) :
    ban ∈ store.simbans list { network := true } ↔ store.lists.Holds ban ∧ ban.standing = true ∧ ban.list = list := by
  have flags : (!ban.flags.temporary && (ban.list == list && ban.flags.has { network := true })) = true ↔
      ban.standing = true ∧ ban.list = list := by
    simp only [Ban.standing, Flags.has, Bool.and_eq_true, Bool.not_eq_true', beq_iff_eq]
    constructor
    · rintro ⟨lasting, listed, network⟩
      exact ⟨⟨by simpa using network, lasting⟩, listed⟩
    · rintro ⟨⟨network, lasting⟩, listed⟩
      exact ⟨lasting, listed, by simp [network]⟩
  simp only [Store.simbans, List.mem_flatMap, List.mem_filter, flags]
  constructor
  · rintro ⟨slot, _, here, standing, listed⟩
    exact ⟨⟨slot, here⟩, standing, listed⟩
  · rintro ⟨⟨slot, here⟩, standing, listed⟩
    refine ⟨slot, ?_, here, standing, listed⟩
    rw [← Option.some.inj (sound.filed slot ban here), Ban.slot, listed, List.mem_append, List.mem_singleton]
    split
    · exact .inr rfl
    · exact .inl (List.mem_map_of_mem (List.mem_range.mpr (Nat.mod_lt _ (by decide))))

/-- The bans that a new link is told of. -/
def Store.told (store : Store) : List Ban :=
  store.simbans .chan { network := true } ++ store.simbans .nick { network := true } ++
    store.simbans .gcos { network := true }

theorem Store.burst_told (store : Store) (me : Text) : store.burst me = store.told.map (Ban.line me) := by
  rw [Store.burst, Store.told, List.map_append, List.map_append]
  rfl

theorem Store.Sound.mem_told (sound : store.Sound) :
    ban ∈ store.told ↔ store.lists.Holds ban ∧ ban.standing = true := by
  simp only [Store.told, List.mem_append, sound.mem_simbans]
  constructor
  · rintro ((⟨held, standing, -⟩ | ⟨held, standing, -⟩) | ⟨held, standing, -⟩)
    all_goals exact ⟨held, standing⟩
  · intro ⟨held, standing⟩
    cases listed : ban.list with
    | chan => exact .inl (.inl ⟨held, standing, rfl⟩)
    | nick => exact .inl (.inr ⟨held, standing, rfl⟩)
    | gcos => exact .inr ⟨held, standing, rfl⟩

theorem Store.Sound.nets_told (sound : store.Sound) : { key | ∃ ban ∈ store.told, ban.key = key } = store.nets := by
  ext key
  simp only [Store.nets, Set.mem_ofPred_eq, sound.mem_told, and_assoc]

/-! ### A line at the other end -/

/-- A ban that is found already is the same for the set. -/
theorem Store.nets_addNew (ban : Ban) (standing : ban.standing = true) (reason : Text) :
    (store.addNew (some ban) reason).nets = insert ban.key store.nets := by
  unfold Store.addNew
  dsimp only
  cases found : store.findSimbanExact ban with
  | none =>
    ext key
    simp only [Store.nets, Set.mem_ofPred_eq, Set.mem_insert_iff, Store.addSimban, Shelf.holds_put]
    constructor
    · rintro ⟨other, rfl | held, fresh, rfl⟩
      · exact .inl rfl
      · exact .inr ⟨other, held, fresh, rfl⟩
    · rintro (rfl | ⟨other, held, fresh, is⟩)
      · exact ⟨_, .inl rfl, standing, rfl⟩
      · exact ⟨other, .inr held, fresh, is⟩
  | some oban =>
    obtain ⟨list, flags, mask⟩ := Ban.same_iff.mp (List.find?_some found)
    have known : ban.key ∈ store.nets := by
      refine ⟨oban, ⟨ban.slot, List.mem_of_find?_eq_some found⟩, ?_, ?_⟩
      · rw [Ban.standing, flags]
        exact standing
      · rw [Ban.key, list, mycmp_iff.mp mask]
        rfl
    exact (Set.insert_eq_of_mem known).symm

theorem words_sqline {name mask : Text} (solid : ' ' ∉ name) (word : Word mask) (reason : Text) :
    Parse.words (sqlineLine name mask reason) = ⟨name, "SQLINE".toList, [mask, reason]⟩ := by
  have line : sqlineLine name mask reason =
      ':' :: name ++ ' ' :: "SQLINE".toList ++ (Parse.spaced [mask] ++ (" :".toList ++ reason)) := by
    simp [sqlineLine, Parse.spaced]
  have words : ∀ text ∈ [mask], Word text := List.forall_mem_singleton.mpr word
  rw [line, Parse.words_trailing solid (by decide) (by decide) words (by simp [maxPara]) (.inl rfl)]
  rfl

theorem words_sgline {name : Text} (solid : ' ' ∉ name) (len : Int) (mask reason : Text) :
    Parse.words (sglineLine name len mask reason) =
      ⟨name, "SGLINE".toList, [Decimal.print len, mask ++ ':' :: reason]⟩ := by
  have line : sglineLine name len mask reason = ':' :: name ++ ' ' :: "SGLINE".toList ++
      (Parse.spaced [Decimal.print len] ++ (" :".toList ++ (mask ++ ':' :: reason))) := by
    simp [sglineLine, Parse.spaced]
  have word : ∀ text ∈ [Decimal.print len], Word text := List.forall_mem_singleton.mpr (Parse.word_print len)
  rw [line, Parse.words_trailing solid (by decide) (by decide) word (by simp [maxPara]) (.inl rfl)]
  rfl

/-- The length in front tells the mask and the reason apart, whatever colons they hold. -/
theorem splitSgline_join (mask reason : Text) :
    splitSgline mask.length (mask ++ ':' :: reason) = some (mask, reason) := by
  have inside : 0 ≤ (mask.length : Int) ∧ (mask.length : Int) < (mask ++ ':' :: reason).length ∧
      (mask ++ ':' :: reason)[(mask.length : Int).toNat]? = some ':' := by
    refine ⟨Int.natCast_nonneg _, ?_, by simp⟩
    rw [List.length_append, List.length_cons]
    omega
  rw [splitSgline, if_pos inside]
  simp

theorem reasonOr_of_ne_nil {reason : Text} (filled : reason ≠ []) (usual : String) :
    reasonOr (some reason) usual = reason := by
  cases reason with
  | nil => exact absurd rfl filled
  | cons first reason => rfl

theorem onLink_of_short (short : line.length ≤ 510) (shared : Bool) : onLink shared line = line := by
  cases shared with
  | true => exact List.take_of_length_le short
  | false => exact List.take_of_length_le (Nat.le_succ_of_le short)

theorem Ban.Sound.mask_ne_nil {ban : Ban} (sound : ban.Sound) : ban.mask ≠ [] := by
  intro empty
  have made := sound.made
  rw [empty] at made
  cases made

theorem Server.take_sqline {server : Server} (heard : Parse.words line = ⟨sender, "SQLINE".toList, mask :: more⟩)
    (known : server.known (sender.take hostLen) = some sptr) :
    server.take line = ({ server with store := server.store.mSqline mask more.head? },
      (sqlineOn sptr mask more.head?).toList.map (onLink server.shares)) := by
  unfold Server.take
  rw [heard]
  dsimp only
  rw [known]
  exact if_pos rfl

theorem Server.take_sgline {server : Server} (heard : Parse.words line = ⟨sender, "SGLINE".toList, len :: text :: more⟩)
    (known : server.known (sender.take hostLen) = some sptr) :
    server.take line = ({ server with store := server.store.mSgline len text },
      (sglineOn sptr len text).toList.map (onLink server.shares)) := by
  have other : "SGLINE".toList ≠ "SQLINE".toList := by decide
  unfold Server.take
  rw [heard]
  dsimp only
  rw [known]
  exact (if_neg other).trans (if_pos rfl)

theorem Server.known_taken {origin server : Server} (knows : server.known origin.name = some origin.name) :
    server.known (origin.name.take hostLen) = some origin.name := by
  rw [List.take_of_length_le origin.short, knows]

/-- A line about a nick or a channel. -/
theorem Server.take_sqlineLine {origin server : Server} (knows : server.known origin.name = some origin.name)
    (made : makeSimpleban (.ofMask mask) { network := true } mask = some fresh) (word : Word mask)
    (filled : reason ≠ []) (short : (sqlineLine origin.name mask reason).length ≤ 510) :
    server.take (sqlineLine origin.name mask reason) =
      ({ server with store := server.store.addNew (some fresh) reason }, [sqlineLine origin.name mask reason]) := by
  have store : server.store.mSqline mask (some reason) = server.store.addNew (some fresh) reason := by
    rw [Store.mSqline, made, reasonOr_of_ne_nil filled]
  have sent : sqlineOn origin.name mask (some reason) = some (sqlineLine origin.name mask reason) := by
    rw [sqlineOn, made, reasonOr_of_ne_nil filled, Option.map_some]
  rw [Server.take_sqline (words_sqline origin.solid word reason) (Server.known_taken knows), List.head?_cons, store,
    sent, Option.toList_some, List.map_singleton, onLink_of_short short]

/-- A line about a real name: the length is read as it was printed. -/
theorem Server.take_sglineLine {origin server : Server} (knows : server.known origin.name = some origin.name)
    (made : makeSimpleban .gcos { network := true } mask = some fresh) (filled : reason ≠ [])
    (short : (sglineLine origin.name mask.length mask reason).length ≤ 510) :
    server.take (sglineLine origin.name mask.length mask reason) =
      ({ server with store := server.store.addNew (some fresh) reason },
        [sglineLine origin.name mask.length mask reason]) := by
  have few : mask.length ≤ 510 := by
    refine Nat.le_trans ?_ short
    simp only [sglineLine, List.length_append, List.length_cons]
    omega
  have read : Decimal.atoi (Decimal.print mask.length) = mask.length := by
    refine Decimal.atoi_print (Int.natCast_nonneg _) ?_
    unfold Decimal.intMax
    omega
  have store : server.store.mSgline (Decimal.print mask.length) (mask ++ ':' :: reason) =
      server.store.addNew (some fresh) reason := by
    unfold Store.mSgline
    rw [read, splitSgline_join]
    dsimp only
    rw [made, reasonOr_of_ne_nil filled]
  have sent : sglineOn origin.name (Decimal.print mask.length) (mask ++ ':' :: reason) =
      some (sglineLine origin.name mask.length mask reason) := by
    unfold sglineOn
    rw [read, splitSgline_join]
    dsimp only
    rw [made, reasonOr_of_ne_nil filled, Option.map_some]
  rw [Server.take_sgline (words_sgline origin.solid _ mask reason) (Server.known_taken knows), store, sent,
    Option.toList_some, List.map_singleton, onLink_of_short short]

/-- What a server that knows the origin does with a line about one of its bans. -/
theorem Server.take_line {origin server : Server} (knows : server.known origin.name = some origin.name)
    (sound : Ban.Sound ban) (words : ban.list ≠ .gcos → ' ' ∉ ban.mask ∧ ban.mask.head? ≠ some ':')
    (short : (ban.line origin.name).length ≤ 510) :
    ∃ reason, server.take (ban.line origin.name) =
      ({ server with store := server.store.addNew (some ban.fresh) reason }, [ban.line origin.name]) := by
  have filled := sound.mask_ne_nil
  obtain ⟨made, listed, reason, some, reasoned⟩ := sound
  refine ⟨reason, ?_⟩
  by_cases gcos : ban.list = .gcos
  · have line : ban.line origin.name = sglineLine origin.name ban.mask.length ban.mask reason := by
      rw [Ban.line, if_pos gcos, reasoned, Option.getD_some]
    rw [line] at short ⊢
    rw [gcos] at made
    exact Server.take_sglineLine knows made some short
  · have line : ban.line origin.name = sqlineLine origin.name ban.mask reason := by
      rw [Ban.line, if_neg gcos, reasoned, Option.getD_some]
    have own : ban.list = .ofMask ban.mask := listed.resolve_left gcos
    rw [line] at short ⊢
    rw [own] at made
    exact Server.take_sqlineLine knows made ⟨filled, (words gcos).1, (words gcos).2⟩ some short

/-- Every line of a burst says its ban to the servers that know the origin, and is sent on by them as it came. -/
theorem Server.carries (origin : Server) (sound : origin.store.Sound) (sendable : origin.Sendable)
    (told : ban ∈ origin.store.told) :
    Hops.Carries Server.take (fun server => server.known origin.name = some origin.name) (·.store.nets)
      (ban.line origin.name) ban.key := by
  obtain ⟨held, standing⟩ := sound.mem_told.mp told
  have short : (ban.line origin.name).length ≤ 510 := by
    refine sendable.short _ ?_
    rw [Store.burst_told]
    exact List.mem_map_of_mem told
  have step (server : Server) (knows : server.known origin.name = some origin.name) :=
    Server.take_line knows (sound.bans ban held standing) (sendable.words ban held standing) short
  constructor
  · intro server knows
    obtain ⟨reason, taken⟩ := step server knows
    rw [taken]
    exact knows
  · intro server knows
    obtain ⟨reason, taken⟩ := step server knows
    rw [taken]
    exact Store.nets_addNew ban.fresh standing reason
  · intro server knows
    obtain ⟨reason, taken⟩ := step server knows
    rw [taken]

theorem Server.Sendable.lines_eq {server : Server} (sendable : server.Sendable) :
    server.lines = server.store.told.map (Ban.line server.name) := by
  have whole (line : Text) (member : line ∈ server.store.burst server.name) : onLink false line = line :=
    onLink_of_short (sendable.short line member) false
  rw [Server.lines, ← Store.burst_told, List.map_congr_left whole]
  exact List.map_id' _

/-- The servers of a path that know the origin have its bans, beside their own, when its burst has passed. -/
theorem Server.burst_passes (origin : Server) (sound : origin.store.Sound) (sendable : origin.Sendable)
    (path : List Server) (knows : ∀ server ∈ path, server.known origin.name = some origin.name) :
    List.Forall₂ (fun before after : Server => after.store.nets = before.store.nets ∪ origin.store.nets) path
      (Hops.pass Server.take path origin.lines) := by
  have passed := Hops.pass_carries (fun ban => origin.carries sound sendable) knows
  rwa [sound.nets_told, ← sendable.lines_eq] at passed

/-- Two servers that link, whatever has happened to their bans before: each has all the permanent network bans of both
when it has taken the other's burst, and so has every server that the lines come to over further hops. -/
theorem simbans_synchronised (alpha beta : Server) (reached : machine.Run Machine.Any (.empty start) alpha.store)
    (reached' : machine.Run Machine.Any (.empty start') beta.store) (sendable : alpha.Sendable)
    (sendable' : beta.Sendable) (knows : beta.known alpha.name = some alpha.name)
    (knows' : alpha.known beta.name = some beta.name) :
    (Hops.hear Server.take beta alpha.lines).1.store.nets = alpha.store.nets ∪ beta.store.nets ∧
    (Hops.hear Server.take alpha beta.lines).1.store.nets = alpha.store.nets ∪ beta.store.nets ∧
    ∀ further : List Server,
      ((∀ server ∈ further, server.known alpha.name = some alpha.name) →
        List.Forall₂ (fun before after : Server => after.store.nets = before.store.nets ∪ alpha.store.nets) further
          (Hops.pass Server.take further (Hops.hear Server.take beta alpha.lines).2)) ∧
      ((∀ server ∈ further, server.known beta.name = some beta.name) →
        List.Forall₂ (fun before after : Server => after.store.nets = before.store.nets ∪ beta.store.nets) further
          (Hops.pass Server.take further (Hops.hear Server.take alpha beta.lines).2)) := by
  have sound := Store.Sound.run reached
  have sound' := Store.Sound.run reached'
  have forth (further : List Server) (path : ∀ server ∈ further, server.known alpha.name = some alpha.name) :=
    alpha.burst_passes sound sendable (beta :: further) (List.forall_mem_cons.mpr ⟨knows, path⟩)
  have back (further : List Server) (path : ∀ server ∈ further, server.known beta.name = some beta.name) :=
    beta.burst_passes sound' sendable' (alpha :: further) (List.forall_mem_cons.mpr ⟨knows', path⟩)
  have none (name : Text) : ∀ server ∈ ([] : List Server), server.known name = some name := List.forall_mem_nil _
  refine ⟨?_, ?_, fun further => ⟨fun path => ?_, fun path => ?_⟩⟩
  · rw [Set.union_comm]
    exact (List.forall₂_cons.mp (forth [] (none _))).1
  · exact (List.forall₂_cons.mp (back [] (none _))).1
  · exact (List.forall₂_cons.mp (forth further path)).2
  · exact (List.forall₂_cons.mp (back further path)).2

/-- A server that knows every server by its name. -/
def anyServer (name : Text) (named : name ≠ []) (solid : ' ' ∉ name) (short : name.length ≤ hostLen) (store : Store) :
    Server :=
  { name, named, solid, short, known := some, shares := true, store }

/-- A real name that the line's own separator is part of, and a reason with one more. -/
def hub : Server :=
  anyServer "hub.net".toList (by decide) (by decide) (by decide) ((Store.empty 0).mSgline ['5'] "a: b*:no: go".toList)

def leaf : Server :=
  anyServer "leaf.net".toList (by decide) (by decide) (by decide) ((Store.empty 0).mSqline "*serv".toList none)

theorem holds_one (held : ((Store.empty time).addSimban ban).lists.Holds other) : other = ban :=
  (Shelf.holds_put.mp held).resolve_right Shelf.holds_empty

theorem reached_by (action : Action) : machine.Run Machine.Any (.empty 0) ((Store.empty 0).perform action) :=
  .tail (.refl _) trivial trivial

theorem hub_reached : machine.Run Machine.Any (.empty 0) hub.store := reached_by (.sgline ['5'] "a: b*:no: go".toList)

theorem leaf_reached : machine.Run Machine.Any (.empty 0) leaf.store := reached_by (.sqline "*serv".toList none)

theorem sendable_of (server : Server) (reached : machine.Run Machine.Any (.empty 0) server.store)
    (all : ∀ ban, server.store.lists.Holds ban →
      (ban.list ≠ .gcos → ' ' ∉ ban.mask ∧ ban.mask.head? ≠ some ':') ∧ (ban.line server.name).length ≤ 510) :
    server.Sendable := by
  refine ⟨fun ban held _ => (all ban held).1, ?_⟩
  rw [Store.burst_told, List.forall_mem_map]
  exact fun ban told => (all ban ((Store.Sound.run reached).mem_told.mp told).1).2

theorem hub_sendable : hub.Sendable := by
  refine sendable_of hub hub_reached fun ban held => ?_
  rw [holds_one held]
  decide

theorem leaf_sendable : leaf.Sendable := by
  refine sendable_of leaf leaf_reached fun ban held => ?_
  rw [holds_one held]
  decide

theorem simbans_synchronised_leaf :
    (Hops.hear Server.take leaf hub.lines).1.store.nets = hub.store.nets ∪ leaf.store.nets :=
  (simbans_synchronised hub leaf hub_reached leaf_reached hub_sendable leaf_sendable rfl rfl).1

end SolidIrcd.SimBan
