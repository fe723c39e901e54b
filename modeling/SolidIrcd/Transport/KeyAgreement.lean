import SolidIrcd.Transport.Handshake

/-! Whatever the order in which the two ends of a link send and read, neither refuses a line of the exchange, and
what one encrypts the other deciphers. -/

namespace SolidIrcd.Transport

open Function (update)

variable {S D I : Type} (zlib : Zlib D I) (dh : Dh S) (sessions : Bool → S × S)

/-- An end before its `DKEY START`, or when some lines of the peer have been heard. -/
def Stands (side : Bool) (serv : Serv S D) : Prop :=
  (serv.dkey = .idle ∧ serv.heard = [] ∧ Told zlib dh sessions side 0 serv.output) ∨
    ∃ count, count ≤ 5 ∧ Heard zlib dh sessions side count serv

/-- What an end has read of the queue of its peer. -/
structure Taken (key : Bytes) (receiver : Receiver I) (heard : List Bytes) (taken : Nat) (sendQ : Bytes) : Prop where
  within : taken ≤ sendQ.length
  reads : Reads zlib key (sendQ.take taken) receiver heard
  chunks : ∃ chunks : List Bytes, (∀ chunk ∈ chunks, chunk ≠ []) ∧ chunks.flatten = sendQ.take taken ∧
    ∃ least, ∀ calls, least ≤ calls → dopackets zlib key calls .fresh [] chunks = some (.kept receiver heard)

structure Net.Sound (net : Net S D I) : Prop where
  alive : ∀ side, net.dropped side = false
  stands : ∀ side, Stands zlib dh sessions side (net.serv side)
  taken : ∀ side, Taken zlib (keyIn dh sessions side) (net.receiver side) (net.serv side).heard (net.taken side)
    (net.serv !side).output.sender.sendQ

/-- No line of the exchange is refused and every read comes to an end. When both ends are established, each has
encrypted just the bytes behind its own `DKEY DONE`, and the other has deciphered just what it has read of these, with
the same key. When both have begun and nothing is left to hear, they are established. -/
structure Net.Agrees (net : Net S D I) : Prop where
  alive : ∀ side, net.dropped side = false
  ends : ∀ side length, (net.serv side).dkey.nego = true ∨ (net.serv side).dkey.estab = true →
    net.chunk side length ≠ [] → ∃ receiver serv least, ∀ calls, least ≤ calls →
      net.read zlib dh sessions side length calls = some (.kept receiver serv)
  heard : ∀ side, (net.serv side).heard <+: (net.serv !side).output.sent
  keys : (∀ side, (net.serv side).dkey.estab = true) → ∀ side, ∃ key front,
    dh.computeKey (sessions side).2 (dh.pubKey (sessions !side).1) = some key ∧ UpToDone zlib key front ∧
      Enciphers key front (net.serv side).output.sender ∧
      Deciphers key front ((net.serv side).output.sender.sendQ.take (net.taken !side)) (net.receiver !side)
  completes : (∀ side, (net.serv side).dkey.nego = true ∨ (net.serv side).dkey.estab = true) →
    (∀ side, (net.serv side).heard = (net.serv !side).output.sent) → ∀ side, (net.serv side).dkey.estab = true

section

variable {zlib dh sessions} {net : Net S D I}

theorem Taken.grows (taken : Taken zlib key receiver heard count sendQ) (grows : sendQ <+: sendQ') :
    Taken zlib key receiver heard count sendQ' := by
  obtain ⟨more, rfl⟩ := grows
  obtain ⟨within, reads, chunks⟩ := taken
  have same : (sendQ ++ more).take count = sendQ.take count := List.take_append_of_le_length within
  exact ⟨by rw [List.length_append]; omega, by rw [same]; exact reads, by rw [same]; exact chunks⟩

/-- What is still on the way completes what has been read. -/
theorem Taken.behind {out : Output D} (lawful : zlib.Lawful) (carries : Carries zlib key out final handed waiting)
    (taken : Taken zlib key receiver heard count out.sender.sendQ) :
    Absorbs zlib (hand zlib key) receiver heard (out.sender.sendQ.drop count) (final, handed) := by
  obtain ⟨-, -, chunks, nonempty, flat, least, goes⟩ := taken
  have absorbs := carries.absorbs
  rw [← List.take_append_drop count out.sender.sendQ, ← flat] at absorbs
  obtain ⟨receiver', heard', least', goes', behind⟩ := dopackets_keeps lawful chunks nonempty absorbs
  have same := (goes (max least least') (Nat.le_max_left ..)).symm.trans (goes' _ (Nat.le_max_right ..))
  obtain ⟨rfl, rfl⟩ := Outcome.kept.inj (Option.some.inj same)
  exact behind

theorem Taken.start (key : Bytes) : Taken zlib key .fresh [] 0 [] :=
  ⟨Nat.le_refl 0, .start, [], List.forall_mem_nil _, rfl, 0, fun _ _ => rfl⟩

theorem Stands.told (stands : Stands zlib dh sessions side serv) :
    ∃ count, count ≤ 5 ∧ Told zlib dh sessions side count serv.output := by
  rcases stands with ⟨-, -, told⟩ | ⟨count, few, heard⟩
  · exact ⟨0, by omega, told⟩
  · refine ⟨answers count, ?_, heard.told⟩
    rcases count with _ | _ | _ | _ | count
    · decide
    · decide
    · decide
    · decide
    · exact Nat.le_refl 5

/-- One end changes; the other has read as much as before. -/
theorem Net.Sound.update (sound : net.Sound zlib dh sessions) (side : Bool) (serv : Serv S D) (receiver : Receiver I)
    (count : Nat) (stands : Stands zlib dh sessions side serv)
    (grows : (net.serv side).output.sender.sendQ <+: serv.output.sender.sendQ)
    (taken : Taken zlib (keyIn dh sessions side) receiver serv.heard count (net.serv !side).output.sender.sendQ) :
    Net.Sound zlib dh sessions
      ⟨Function.update net.serv side serv, Function.update net.receiver side receiver,
        Function.update net.taken side count, net.dropped⟩ := by
  have away : (!side) ≠ side := by cases side <;> decide
  have sides (P : Bool → Prop) (here : P side) (there : P !side) (other : Bool) : P other := by
    by_cases same : other = side
    · rwa [same]
    · have opposite : other = !side := by
        cases other <;> cases side <;> simp_all
      rwa [opposite]
  refine ⟨sound.alive, sides _ ?_ ?_, sides _ ?_ ?_⟩
  · simpa only [Function.update_self] using stands
  · simpa only [Function.update_of_ne away] using sound.stands _
  · simpa only [Function.update_self, Function.update_of_ne away] using taken
  · have other := (sound.taken !side)
    rw [Bool.not_not] at other
    simpa only [Function.update_of_ne away, Bool.not_not, Function.update_self] using other.grows grows

/-- One end sends. -/
theorem Net.Sound.put (sound : net.Sound zlib dh sessions) (side : Bool) (serv : Serv S D)
    (stands : Stands zlib dh sessions side serv) (heard : serv.heard = (net.serv side).heard)
    (grows : (net.serv side).output.sender.sendQ <+: serv.output.sender.sendQ) :
    (net.put side serv).Sound zlib dh sessions := by
  have same := sound.update side serv (net.receiver side) (net.taken side) stands grows (heard ▸ sound.taken side)
  rwa [Function.update_eq_self, Function.update_eq_self] at same

theorem Net.Sound.start : (.start : Net S D I).Sound zlib dh sessions where
  alive _ := rfl
  stands _ := .inl ⟨rfl, rfl, rfl, by simp [Net.start, Output.fresh], fun zipped => absurd rfl zipped,
    fun before behind same => absurd same (by simp [Net.start, Output.fresh]), List.forall_mem_nil _, .start,
    .fresh, [], [], rfl, ⟨1, rfl, rfl⟩, rfl, rfl, rfl, rfl, List.forall_mem_nil _, List.forall_mem_nil _⟩
  taken _ := .start _

theorem done_place (dlawful : dh.Lawful) (same : first ++ dkeyDone :: rest = lines dh own count) : first.length = 3 := by
  by_contra other
  have place := congrArg (fun all : List Bytes => all[first.length]?) same
  rw [List.getElem?_append_right (Nat.le_refl _), Nat.sub_self, List.getElem?_cons_zero] at place
  have fits : first.length < count := by
    have inside := (List.getElem?_eq_some_iff.mp place.symm).1
    simpa [lines] using inside
  rw [lines, List.getElem?_map, List.getElem?_range fits] at place
  obtain ⟨params, short, -⟩ := script_params dlawful own first.length
  exact (dkeyLine_Plain params short (script_other other)).2.2.1 (Option.some.inj place).symm

theorem dkeys_done (behind : List Bytes) : dkeys (dkeyDone :: behind) = dkeyDone :: dkeys behind :=
  List.filter_cons_of_pos dkey_dkeyDone

theorem staged_of_told {out : Output D} (dlawful : dh.Lawful) (told : Told zlib dh sessions side count out) :
    Staged out.sent where
  once before behind same inside := by
    have split (first second : List Bytes) (same : out.sent = first ++ dkeyDone :: second) :
        dkeys first ++ dkeyDone :: dkeys second = lines dh (sessions side) count := by
      rw [← told.told, same, dkeys_append, dkeys_done]
    rcases List.mem_append.mp inside with earlier | later
    · obtain ⟨first, second, rfl⟩ := List.append_of_mem earlier
      have place := done_place dlawful (split first (second ++ dkeyDone :: behind) (by rw [same]; simp))
      have place' := done_place dlawful (split (first ++ dkeyDone :: second) behind same)
      rw [dkeys_append, dkeys_done] at place'
      simp only [List.length_append, List.length_cons] at place'
      omega
    · obtain ⟨first, second, rfl⟩ := List.append_of_mem later
      have place := done_place dlawful (split before (first ++ dkeyDone :: second) same)
      have place' := done_place dlawful (split (before ++ dkeyDone :: first) second (by rw [same]; simp))
      rw [dkeys_append, dkeys_done] at place'
      simp only [List.length_append, List.length_cons] at place'
      omega
  first before behind same := by
    have all : dkeyDone ∈ dkeys before := by
      rw [told.zips before behind same]
      exact List.mem_map.mpr ⟨3, by decide, rfl⟩
    exact List.mem_of_mem_filter all

/-- An end that has begun has heard some lines. -/
theorem Net.Sound.heard (sound : net.Sound zlib dh sessions) (side : Bool)
    (started : (net.serv side).dkey.nego = true ∨ (net.serv side).dkey.estab = true) :
    ∃ count, count ≤ 5 ∧ Heard zlib dh sessions side count (net.serv side) := by
  rcases sound.stands side with ⟨idle, -, -⟩ | heard
  · rw [idle] at started
    exact absurd started (by simp [Dkey.idle])
  · exact heard

theorem stage_estab (few : count ≤ 5) (estab : (stage dh sessions side count).estab = true) : count = 5 := by
  rcases count with _ | _ | _ | _ | _ | count
  · cases estab
  · cases estab
  · cases estab
  · cases estab
  · cases estab
  · omega

/-- What a read comes to: the lines in it are the next of the peer, and every one is answered. -/
theorem Net.Sound.reads (lawful : zlib.Lawful) (dlawful : dh.Lawful) (sound : net.Sound zlib dh sessions) (side : Bool)
    (started : (net.serv side).dkey.nego = true ∨ (net.serv side).dkey.estab = true) (length : Nat)
    (some : net.chunk side length ≠ []) :
    ∃ receiver serv least, (∀ calls, least ≤ calls →
        net.read zlib dh sessions side length calls = Option.some (.kept receiver serv)) ∧
      Stands zlib dh sessions side serv ∧ (net.serv side).output.sender.sendQ <+: serv.output.sender.sendQ ∧
      Taken zlib (keyIn dh sessions side) receiver serv.heard (net.taken side + (net.chunk side length).length)
        (net.serv !side).output.sender.sendQ := by
  obtain ⟨count, few, heard⟩ := sound.heard side started
  obtain ⟨count', few', told⟩ := (sound.stands !side).told
  obtain ⟨final, handed, waiting, carries⟩ := told.carries
  have key : keyOut dh sessions (!side) = keyIn dh sessions side := by
    rw [keyOut_eq_keyIn dlawful, Bool.not_not]
  rw [key] at carries
  have behind := (sound.taken side).behind lawful carries
  rw [← List.take_append_drop length ((net.serv !side).output.sender.sendQ.drop (net.taken side))] at behind
  obtain ⟨receiver, handed', least', goes', behind'⟩ := dopacket_keeps lawful behind some
  obtain ⟨more, all⟩ := behind'.hands
  obtain ⟨lines, rfl, -, onward⟩ := dopacket_hand (parseLink zlib dh (sessions side)) (goes' least' (Nat.le_refl _))
  have sent : (net.serv !side).output.sent = (net.serv side).heard ++ lines ++ (more ++ waiting) := by
    rw [carries.sent, show handed = _ from all, List.append_assoc]
  obtain ⟨follows, stands, all', grows⟩ := heard.hears lawful dlawful few told few' sent
  refine ⟨receiver, _, least', fun calls enough => ?_, .inr stands, grows, ?_⟩
  · exact dopacket_le enough (onward _ follows)
  · obtain ⟨within, reads, chunks, nonempty, flat, least, goes⟩ := sound.taken side
    have size : chunks.flatten.length = net.taken side := by rw [flat, List.length_take, Nat.min_eq_left within]
    have split : (net.serv !side).output.sender.sendQ = chunks.flatten ++ (net.chunk side length ++
        ((net.serv !side).output.sender.sendQ.drop (net.taken side)).drop length) := by
      rw [flat, Net.chunk, List.take_append_drop, List.take_append_drop]
    have longer : (net.serv !side).output.sender.sendQ.take (net.taken side + (net.chunk side length).length) =
        chunks.flatten ++ net.chunk side length := by
      rw [split, ← List.append_assoc, ← size, ← List.length_append, List.take_left']
      rfl
    refine ⟨?_, ?_, chunks ++ [net.chunk side length], ?_, ?_, max least least', ?_⟩
    · rw [split, ← size, List.length_append, List.length_append]
      omega
    · rw [longer, flat, all']
      have staged := staged_of_told dlawful told
      rw [sent] at staged
      exact reads.dopacket (goes' least' (Nat.le_refl _)) staged.of_append
    · intro chunk inside
      rcases List.mem_append.mp inside with before | this
      · exact nonempty chunk before
      · rw [List.mem_singleton.mp this]
        exact some
    · rw [longer]
      simp
    · intro calls enough
      rw [all']
      exact dopackets_snoc (goes calls (Nat.le_trans (Nat.le_max_left ..) enough))
        (goes' calls (Nat.le_trans (Nat.le_max_right ..) enough))

/-- What every action keeps. -/
theorem Net.Sound.perform (lawful : zlib.Lawful) (dlawful : dh.Lawful) (action : Action)
    (possible : net.Possible zlib dh sessions action) (sound : net.Sound zlib dh sessions) :
    (net.perform zlib dh sessions action).Sound zlib dh sessions := by
  obtain ⟨-, possible⟩ := possible
  cases action with
  | mServerEstab side =>
    obtain ⟨quiet, unestab⟩ := possible
    rcases sound.stands side with ⟨idle, heard, told⟩ | ⟨count, few, heard⟩
    · refine sound.put side _ (.inr ⟨0, by omega, ?_⟩) rfl
        (perform_sendQ (net.serv side).output (.sendMessage (encode "DKEY START".toList) false) [])
      refine ⟨?_, by rw [Serv.sendtoOne, heard]; rfl, told.next lawful dlawful (by decide) (by decide)⟩
      rw [Serv.sendtoOne, idle]
      rfl
    · rw [heard.dkey] at quiet unestab
      rcases count with _ | _ | _ | _ | _ | count
      · cases quiet
      · cases quiet
      · cases quiet
      · cases quiet
      · cases quiet
      · cases unestab
  | sendMessage side msg sbuf =>
    obtain ⟨nonempty, plain, quiet⟩ := possible
    have eol (g : UInt8) (inside : g ∈ msg) : isEol g = false := (plain g inside).1
    refine sound.put side _ ?_ rfl (perform_sendQ ..)
    rcases sound.stands side with ⟨idle, heard, told⟩ | ⟨count, few, heard⟩
    · exact .inl ⟨idle, heard, told.quietly lawful sbuf nonempty eol quiet⟩
    · exact .inr ⟨count, few, heard.dkey, heard.heard, heard.told.quietly lawful sbuf nonempty eol quiet⟩
  | sendQueued side =>
    refine sound.put side _ ?_ rfl (perform_sendQ ..)
    rcases sound.stands side with ⟨idle, heard, told⟩ | ⟨count, few, heard⟩
    · exact .inl ⟨idle, heard, told.queued lawful⟩
    · exact .inr ⟨count, few, heard.dkey, heard.heard, heard.told.queued lawful⟩
  | svinfoZip side =>
    obtain ⟨estab, unzipped⟩ := possible
    refine sound.put side _ ?_ rfl (perform_sendQ ..)
    rcases sound.stands side with ⟨idle, heard, told⟩ | ⟨count, few, heard⟩
    · rw [idle] at estab
      cases estab
    · rw [heard.dkey] at estab
      obtain rfl := stage_estab few estab
      exact .inr ⟨5, few, heard.dkey, heard.heard, heard.told.zip lawful unzipped⟩
  | readPacket side length calls =>
    obtain ⟨started, some, ends⟩ := possible
    obtain ⟨receiver, serv, least, goes, stands, grows, taken⟩ := sound.reads lawful dlawful side started length some
    have read : net.read zlib dh sessions side length calls = Option.some (.kept receiver serv) := by
      cases result : net.read zlib dh sessions side length calls with
      | none => exact absurd result ends
      | some outcome => exact (dopacket_le (Nat.le_max_left calls least) result).symm.trans (goes _ (Nat.le_max_right ..))
    rw [Net.perform, read]
    exact sound.update side serv receiver _ stands grows taken

/-- What an established end sends is what its peer reads. -/
theorem Net.Sound.keys (dlawful : dh.Lawful) (sound : net.Sound zlib dh sessions)
    (estab : ∀ side, (net.serv side).dkey.estab = true) (side : Bool) : ∃ key front,
    dh.computeKey (sessions side).2 (dh.pubKey (sessions !side).1) = some key ∧ UpToDone zlib key front ∧
      Enciphers key front (net.serv side).output.sender ∧
      Deciphers key front ((net.serv side).output.sender.sendQ.take (net.taken !side)) (net.receiver !side) := by
  obtain ⟨secret, -, computed, -⟩ := dlawful.agrees (sessions side).2 (sessions !side).1
  have key : keyOut dh sessions side = secret := by rw [keyOut, computed, Option.getD_some]
  obtain ⟨count, few, heard⟩ := sound.heard side (.inr (estab side))
  obtain rfl := stage_estab few (heard.dkey ▸ estab side)
  obtain ⟨front, upTo, enciphers⟩ := heard.told.writes.ciphered (heard.told.rc4Out.mpr (by decide))
  obtain ⟨count, few, peer⟩ := sound.heard (!side) (.inr (estab !side))
  obtain rfl := stage_estab few (peer.dkey ▸ estab !side)
  have done : dkeyDone ∈ (net.serv !side).heard := by
    refine List.mem_of_mem_filter (p := isDkey) ?_
    change dkeyDone ∈ dkeys _
    rw [peer.heard]
    exact List.mem_map.mpr ⟨3, by decide, rfl⟩
  have taken := (sound.taken !side).reads
  rw [Bool.not_not, ← keyOut_eq_keyIn dlawful] at taken
  obtain ⟨front', upTo', deciphers⟩ := taken.ciphered done
  obtain rfl : front' = front := by
    obtain ⟨behind, sendQ, -⟩ := enciphers
    obtain ⟨behind', split, -⟩ := deciphers
    have same : front' ++ (behind' ++ (net.serv side).output.sender.sendQ.drop (net.taken !side)) =
        front ++ (rc4ProcessStream (rc4Initstate (keyOut dh sessions side)) behind).2 := by
      rw [← List.append_assoc, ← split, List.take_append_drop, sendQ]
    exact upTo'.unique upTo same
  rw [key] at upTo enciphers deciphers
  exact ⟨secret, front', computed, upTo, enciphers, deciphers⟩

theorem Net.Sound.prefix (lawful : zlib.Lawful) (dlawful : dh.Lawful) (sound : net.Sound zlib dh sessions) (side : Bool) :
    (net.serv side).heard <+: (net.serv !side).output.sent := by
  obtain ⟨count, -, told⟩ := (sound.stands !side).told
  obtain ⟨final, handed, waiting, carries⟩ := told.carries
  have key : keyOut dh sessions (!side) = keyIn dh sessions side := by
    rw [keyOut_eq_keyIn dlawful, Bool.not_not]
  rw [key] at carries
  obtain ⟨more, all⟩ := ((sound.taken side).behind lawful carries).hands
  exact ⟨more ++ waiting, by rw [carries.sent, show handed = _ from all, List.append_assoc]⟩

/-- Each end answers what it hears until all is said. -/
theorem Net.Sound.completes (sound : net.Sound zlib dh sessions)
    (started : ∀ side, (net.serv side).dkey.nego = true ∨ (net.serv side).dkey.estab = true)
    (all : ∀ side, (net.serv side).heard = (net.serv !side).output.sent) (side : Bool) :
    (net.serv side).dkey.estab = true := by
  obtain ⟨count, few, heard⟩ := sound.heard side (started side)
  obtain ⟨count', few', peer⟩ := sound.heard (!side) (started !side)
  have size (first second : Nat) (own : S × S) (same : lines dh own first = lines dh own second) : first = second := by
    simpa [lines] using congrArg List.length same
  have mine : count = answers count' := by
    refine size _ _ (sessions !side) ?_
    rw [← heard.heard, all side, peer.told.told]
  have theirs : count' = answers count := by
    refine size _ _ (sessions side) ?_
    have said := peer.heard
    rw [Bool.not_not] at said
    rw [← said, all (!side), Bool.not_not, heard.told.told]
  have last : count = 5 := by
    rw [theirs] at mine
    rcases count with _ | _ | _ | _ | _ | count
    · exact absurd mine (by decide)
    · exact absurd mine (by decide)
    · exact absurd mine (by decide)
    · exact absurd mine (by decide)
    · exact absurd mine (by decide)
    · omega
  rw [heard.dkey, last]
  rfl

/-- The exchange agrees in every run. -/
theorem dkey_agrees (lawful : zlib.Lawful) (dlawful : dh.Lawful)
    (run : (machine zlib dh sessions).Run Machine.Any .start net) : net.Agrees zlib dh sessions := by
  have sound : net.Sound zlib dh sessions := run.invariant (Net.Sound zlib dh sessions)
    (fun _ action possible _ sound => sound.perform lawful dlawful action possible) .start
  refine ⟨sound.alive, fun side length started some => ?_, sound.prefix lawful dlawful, sound.keys dlawful, sound.completes⟩
  obtain ⟨receiver, serv, least, goes, -⟩ := sound.reads lawful dlawful side started length some
  exact ⟨receiver, serv, least, goes⟩

/-- Diffie-Hellman modulo three: whether a private key is odd, and two to its power. -/
def Dh.small : Dh Bool where
  pubKey odd := if odd then ['2'] else ['1']
  computeKey odd publicKey := some [if publicKey = ['2'] ∧ odd = true then 2 else 1]

theorem Dh.small_lawful : Dh.small.Lawful where
  hex session := by cases session <;> simp [Dh.small] <;> decide
  short session := by cases session <;> decide
  agrees mine theirs := by
    cases mine <;> cases theirs <;> exact ⟨_, by decide, rfl, rfl⟩

/-- Both ends begin, and each reads the other's `DKEY START`. -/
private def crossing : List Action :=
  [.mServerEstab false, .mServerEstab true, .sendMessage true (ascii "PING :hub") true, .readPacket false 11 3,
    .readPacket true 4 3, .readPacket true 20 3]

private def pairs : Bool → Bool × Bool := fun side => (true, side)

private theorem crossing_allows : (machine Zlib.stored Dh.small pairs).Allows Machine.Any .start crossing := by
  have ends (net : Net Bool Unit Unit) (side : Bool) (length calls : Nat)
      (some : (net.read Zlib.stored Dh.small pairs side length calls).isSome = true) :
      net.read Zlib.stored Dh.small pairs side length calls ≠ none := Option.isSome_iff_ne_none.mp some
  refine ⟨⟨?_, ?_, ?_⟩, trivial, ⟨?_, ?_, ?_⟩, trivial, ⟨?_, ?_, ?_, ⟨?_, ?_⟩⟩, trivial, ⟨?_, .inl ?_, ?_, ends _ _ _ _ ?_⟩,
    trivial, ⟨?_, .inl ?_, ?_, ends _ _ _ _ ?_⟩, trivial, ⟨?_, .inl ?_, ?_, ends _ _ _ _ ?_⟩, trivial, trivial⟩
  case refine_9 =>
    have plain : ((ascii "PING :hub").all fun g => !isEol g && g != 0) = true := by decide +kernel
    intro g inside
    simpa using List.all_eq_true.mp plain g inside
  all_goals decide +kernel

theorem dkey_agrees_crossing :
    (crossing.foldl (machine Zlib.stored Dh.small pairs).perform .start).Agrees Zlib.stored Dh.small pairs :=
  dkey_agrees Zlib.stored_lawful Dh.small_lawful (Machine.Run.of_list crossing (.refl _) crossing_allows)

end

end SolidIrcd.Transport
