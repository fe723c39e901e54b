import SolidIrcd.Clones.Count
import SolidIrcd.Who.Rwho

/-! The lists that RWHO goes through are those the clone table keeps: what the search relies on
holds in every run of it. -/

namespace SolidIrcd.Rwho

open Scan (Text)
open UserBan (inetntoa)

/-- The clients of an entry, along its chain. -/
def onEntry (server : Clones.Server) (key : Text) : List Clones.Client :=
  (server.chain.walk server.clients.length (server.chain.head key)).filterMap server.find

/-- The clients of the server and `clones_list`, with an entry under each of these keys. -/
def populationOf (server : Clones.Server) (look : Clones.Client → Client) (keys : List Text) :
    Population where
  clients := server.clients.map look
  clonesList := keys.filterMap fun key =>
    (server.table key).map fun ce => ⟨ce.gcount, (onEntry server key).map look⟩

/-- What RWHO reads of a client agrees with what the clone table knows of it. -/
structure Shows (look : Clones.Client → Client) : Prop where
  cptr : ∀ client, (look client).cptr = client.cptr
  ip : ∀ client, (look client).ip = client.ip
  isClient : ∀ client, (look client).isClient = client.person

section

variable {server : Clones.Server} {look : Clones.Client → Client} {keys : List Text}

theorem find_iff (sound : server.Sound) {client : Clones.Client} :
    server.find cptr = some client ↔ client ∈ server.clients ∧ client.cptr = cptr := by
  constructor
  · intro found
    exact ⟨List.mem_of_find?_eq_some found, by simpa using List.find?_some found⟩
  · rintro ⟨member, rfl⟩
    have there : (server.find client.cptr).isSome = true :=
      List.find?_isSome.mpr ⟨client, member, by simp⟩
    obtain ⟨other, found⟩ := Option.isSome_iff_exists.mp there
    have known := List.mem_of_find?_eq_some found
    have named : other.cptr = client.cptr := by simpa using List.find?_some found
    rw [found, List.inj_on_of_nodup_map sound.distinct known member named]

/-- The entry of an address has the users from there, each once. -/
theorem onEntry_spec (sound : server.Sound) (key : Text) :
    (onEntry server key).Nodup ∧ ∀ client, client ∈ onEntry server key ↔
      client ∈ server.clients ∧ client.person = true ∧ client.ip ≠ 0 ∧ inetntoa client.ip = key := by
  obtain ⟨lists, shown, listed⟩ := sound.chained
  have inside : lists key ⊆ server.clients.map Clones.Client.cptr := by
    intro cptr member
    obtain ⟨client, known, rfl, -⟩ := (listed key cptr).mp member
    exact List.mem_map_of_mem known
  have short : (lists key).length ≤ server.clients.length := by
    simpa using ((shown.once key).subperm inside).length_le
  rw [onEntry, shown.walk short]
  refine ⟨(shown.once key).filterMap fun first second client left right => ?_, fun client => ?_⟩
  · exact ((find_iff sound).mp left).2.symm.trans ((find_iff sound).mp right).2
  · rw [List.mem_filterMap]
    constructor
    · rintro ⟨cptr, member, found⟩
      obtain ⟨known, rfl⟩ := (find_iff sound).mp found
      obtain ⟨other, there, same, holds⟩ := (listed key client.cptr).mp member
      obtain rfl := List.inj_on_of_nodup_map sound.distinct there known same
      exact ⟨there, holds⟩
    · rintro ⟨known, holds⟩
      exact ⟨client.cptr, (listed key client.cptr).mpr ⟨client, known, rfl, holds⟩,
        (find_iff sound).mpr ⟨known, rfl⟩⟩

theorem look_inj (sound : server.Sound) (shows : Shows look) (left : first ∈ server.clients)
    (right : second ∈ server.clients) (same : look first = look second) : first = second :=
  List.inj_on_of_nodup_map sound.distinct left right
    ((shows.cptr first).symm.trans (same ▸ shows.cptr second))

theorem onEntry_perm (sound : server.Sound) (ip : UserBan.Address) (known : ip ≠ 0) :
    (onEntry server (inetntoa ip)).Perm (server.users (· = ip)) := by
  obtain ⟨once, members⟩ := onEntry_spec sound (inetntoa ip)
  rw [Clones.Server.users, List.perm_ext_iff_of_nodup once (sound.distinct.of_map.filter _)]
  intro client
  rw [members, List.mem_filter]
  constructor
  · rintro ⟨here, person, _, same⟩
    obtain rfl := Clones.inetntoa_inj same
    simp only [person, known, here, decide_true, ne_eq, not_false_eq_true, Bool.and_self, and_self]
  · rintro ⟨here, holds⟩
    simp only [Bool.and_eq_true, decide_eq_true_eq] at holds
    exact ⟨here, holds.1.1, holds.1.2, holds.2 ▸ rfl⟩

/-- In every run the lists are what the search relies on; `keys` are the keys of the table, and the
lists of the channels are their own matter. -/
theorem populationOf_run (run : Clones.machine.Run Clones.Elsewhere .start server) (shows : Shows look)
    (once : keys.Nodup) (all : ∀ key, server.table key ≠ none → key ∈ keys)
    (joined : ∀ name chptr, env.findChannel name = some chptr →
      chptr.members.Nodup ∧ ∀ cptr, cptr ∈ chptr.members ↔
        cptr ∈ (populationOf server look keys).users ∧ chptr.chptr ∈ cptr.channels) :
    (populationOf server look keys).Sound env := by
  have sound := Clones.Server.Sound.run run
  have entry {ce : CloneEnt} (member : ce ∈ (populationOf server look keys).clonesList) :
      ∃ key clone, server.table key = some clone ∧
        ce = ⟨clone.gcount, (onEntry server key).map look⟩ := by
    obtain ⟨key, -, found⟩ := List.mem_filterMap.mp member
    obtain ⟨clone, here, rfl⟩ := Option.map_eq_some_iff.mp found
    exact ⟨key, clone, here, rfl⟩
  have users (ip : UserBan.Address) (known : ip ≠ 0) :
      (populationOf server look keys).onAddress ip = (server.users (· = ip)).map look := by
    simp only [Population.onAddress, Population.users, populationOf, Clones.Server.users,
      List.filter_map, List.filter_filter, Function.comp_def, shows.ip, shows.isClient]
    congr 1
    refine List.filter_congr fun client _ => ?_
    by_cases same : client.ip = ip
    · subst same
      simp only [known, beq_self_eq_true, decide_true, ne_eq, not_false_eq_true, Bool.and_true,
        Bool.true_and]
    · simp [same]
  refine ⟨?_, ?_, ?_, ?_, joined⟩
  · exact sound.distinct.of_map.map_on fun _ left _ right => look_inj sound shows left right
  · intro ce member filled
    obtain ⟨key, clone, here, rfl⟩ := entry member
    obtain ⟨client, inside⟩ := List.exists_mem_of_ne_nil _ (List.map_eq_nil_iff.not.mp filled)
    obtain ⟨-, -, known, rfl⟩ := ((onEntry_spec sound key).2 client).mp inside
    have perm := onEntry_perm sound client.ip known
    have counted := sound.exact.address client.ip known
    rw [Clones.Server.Counts, here] at counted
    refine ⟨client.ip, known, users client.ip known ▸ perm.map look, ?_⟩
    rw [counted.1, List.length_map, perm.length_eq]
  · intro cptr member known
    obtain ⟨mapped, isClient⟩ := List.mem_filter.mp member
    obtain ⟨client, here, rfl⟩ := List.mem_map.mp mapped
    rw [shows.ip] at known
    rw [shows.isClient] at isClient
    have inside :=
      ((onEntry_spec sound (inetntoa client.ip)).2 client).mpr ⟨here, isClient, known, rfl⟩
    have counted := sound.exact.address client.ip known
    cases found : server.table (inetntoa client.ip) with
    | none =>
      rw [Clones.Server.Counts, found] at counted
      have empty : (server.users (· = client.ip)).length = 0 := Int.ofNat.inj counted.1
      rw [← (onEntry_perm sound client.ip known).length_eq, List.length_eq_zero_iff] at empty
      rw [empty] at inside
      cases inside
    | some clone =>
      have filed := all _ (found ▸ Option.some_ne_none clone)
      refine ⟨⟨clone.gcount, _⟩, List.mem_filterMap.mpr ⟨_, filed, ?_⟩, List.mem_map_of_mem inside⟩
      rw [found, Option.map_some]
  · refine List.pairwise_filterMap.mpr (once.imp fun {key key'} differ => ?_)
    intro first left second right cptr one two
    obtain ⟨clone, -, rfl⟩ := Option.map_eq_some_iff.mp left
    obtain ⟨clone', -, rfl⟩ := Option.map_eq_some_iff.mp right
    obtain ⟨client, here, rfl⟩ := List.mem_map.mp one
    obtain ⟨other, there, same⟩ := List.mem_map.mp two
    obtain ⟨known, -, -, address⟩ := ((onEntry_spec sound key).2 client).mp here
    obtain ⟨known', -, -, address'⟩ := ((onEntry_spec sound key').2 other).mp there
    have equal : other = client := look_inj sound shows known' known same
    subst equal
    exact differ (address.symm.trans address')

end

end SolidIrcd.Rwho
