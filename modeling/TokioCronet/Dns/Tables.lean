import TokioCronet.Dns.ResState

/-!
# The tables of the resolver state

What `nsaddr_list` and `nsaddrs` hold for a list of servers, and what `dnsrch` and `defdname`
hold for a search list. Each branch of the loop keeps its own tables and leaves the others
alone; no write leaves them. Every object that has been allocated is either freed or in
`nsaddrs`, and never both.
-/

namespace TokioCronet.Dns

open CString

variable {h : Header} {inet : Inet} {s : ResState}

/-! ## The search list -/

/-- The tables hold a search list, which is packed at the beginning of `defdname`. -/
structure SearchHolds (h : Header) (names : List Text) (dnsrch : List (Option ℕ))
    (defdname : Text) : Prop where
  /-- The pointers are the offsets of the names, and the others are null. -/
  pointers : dnsrch =
    (offsets 0 names).map some ++ List.replicate (h.dnsrch - names.length) none
  /-- The names stand at the beginning of the array. -/
  storage : packed names <+: defdname
  /-- The array keeps its size. -/
  size : defdname.length = h.defdname
  /-- There is a pointer for each name. -/
  count : names.length ≤ h.dnsrch
  /-- The names are strings. -/
  strings : ∀ name ∈ names, '\x00' ∉ name

theorem SearchHolds.empty (h : Header) {defdname : Text} (hsize : defdname.length = h.defdname) :
    SearchHolds h [] (List.replicate h.dnsrch none) defdname where
  pointers := rfl
  storage := List.nil_prefix
  size := hsize
  count := Nat.zero_le _
  strings := nofun

/-- One more name is put behind the others. -/
theorem SearchHolds.concat {names : List Text} {dnsrch : List (Option ℕ)} {defdname name : Text}
    (hs : SearchHolds h names dnsrch defdname) (hname : '\x00' ∉ name)
    (hcount : names.length < h.dnsrch)
    (hfits : (packed names).length + (name.length + 1) ≤ h.defdname) :
    ∃ dnsrch' defdname',
      copy defdname (packed names).length (name ++ ['\x00']) = some defdname' ∧
      store dnsrch names.length (some (packed names).length) = some dnsrch' ∧
      SearchHolds h (names ++ [name]) dnsrch' defdname' := by
  obtain ⟨rest, hrest⟩ := hs.storage
  have hsize := hs.size
  have hpointers : (offsets 0 names).length = names.length := length_offsets 0 names
  refine ⟨_, _, if_pos ?_, if_pos ?_, ?_⟩
  · rw [hsize]
    simpa using hfits
  · rw [hs.pointers, List.length_append, List.length_map, hpointers, List.length_replicate]
    omega
  · constructor
    · obtain ⟨k, hk⟩ : ∃ k, h.dnsrch - names.length = k + 1 :=
        ⟨h.dnsrch - names.length - 1, by omega⟩
      have hk' : h.dnsrch - (names ++ [name]).length = k := by
        rw [List.length_append, List.length_singleton]
        omega
      rw [hs.pointers, hk, hk', List.replicate_succ, offsets_concat, Nat.zero_add, List.map_append,
        List.set_append_right _ _ (by simp [hpointers])]
      simp [hpointers]
    · rw [packed_concat, ← hrest, List.take_left]
      exact List.prefix_append _ _
    · rw [← hrest, List.length_append] at hsize
      simp only [← hrest, List.take_left, List.length_append, List.length_drop,
        List.length_singleton]
      omega
    · rw [List.length_append, List.length_singleton]
      exact hcount
    · intro other hother
      rcases List.mem_append.mp hother with hother | hother
      · exact hs.strings other hother
      · rw [List.mem_singleton.mp hother]
        exact hname

/-- The names that `search` and `domain` look at. -/
def looked (isDomain : Bool) (names : List Text) : List Text :=
  if isDomain then names.take 1 else names

/-- **The loop stores the longest beginning that fits**, behind what it has stored. -/
theorem searchLoop_holds {isDomain : Bool} {names stored : List Text}
    (hnames : ∀ name ∈ names, '\x00' ∉ name)
    (hs : SearchHolds h stored s.dnsrch s.defdname) :
    ∃ dnsrch defdname,
      searchLoop h isDomain stored.length (packed stored).length
        (h.defdname - (packed stored).length) names s =
        some { s with dnsrch := dnsrch, defdname := defdname } ∧
      SearchHolds h (stored ++ fitting (h.maxDnsrch - stored.length)
        (h.defdname - (packed stored).length) (looked isDomain names)) dnsrch defdname := by
  induction names generalizing stored s with
  | nil =>
    have hnil : ∀ places size, fitting places size (looked isDomain []) = [] := by
      intro places size
      cases isDomain <;> cases places <;> rfl
    refine ⟨s.dnsrch, s.defdname, rfl, ?_⟩
    rw [hnil, List.append_nil]
    exact hs
  | cons name names ih =>
    rw [List.forall_mem_cons] at hnames
    have hlooked : looked isDomain (name :: names) = name :: looked isDomain names ∨
        looked isDomain (name :: names) = [name] := by
      cases isDomain
      · exact .inl rfl
      · exact .inr rfl
    rw [searchLoop]
    by_cases hplace : stored.length < h.maxDnsrch
    · obtain ⟨k, hk⟩ : ∃ k, h.maxDnsrch - stored.length = k + 1 :=
        ⟨h.maxDnsrch - stored.length - 1, by omega⟩
      rw [if_pos hplace, hk]
      dsimp only
      by_cases hsize : h.defdname - (packed stored).length < name.length + 1
      · -- the name does not fit
        have hstop : fitting (k + 1) (h.defdname - (packed stored).length)
            (looked isDomain (name :: names)) = [] := by
          rcases hlooked with hlooked | hlooked
          · rw [hlooked, fitting, if_pos hsize]
          · rw [hlooked, fitting, if_pos hsize]
        rw [if_pos hsize, hstop, List.append_nil]
        exact ⟨s.dnsrch, s.defdname, rfl, hs⟩
      · obtain ⟨dnsrch, defdname, hcopy, hstore, hconcat⟩ :=
          hs.concat hnames.1 (Nat.lt_of_lt_of_le hplace h.maxDnsrch_le) (by omega)
        rw [if_neg hsize, hcopy, hstore, Option.bind_some, Option.bind_some]
        have hlen : (stored ++ [name]).length = stored.length + 1 := List.length_append
        have hpacked : (packed (stored ++ [name])).length =
            (packed stored).length + (name.length + 1) := by
          rw [packed_concat, List.length_append, List.length_append, List.length_singleton]
        cases isDomain with
        | true =>
          refine ⟨dnsrch, defdname, rfl, ?_⟩
          have hone : fitting (k + 1) (h.defdname - (packed stored).length) [name] = [name] := by
            rw [fitting, if_neg hsize]
            cases k <;> rfl
          change SearchHolds h (stored ++ fitting (k + 1) _ [name]) dnsrch defdname
          rw [hone]
          exact hconcat
        | false =>
          obtain ⟨dnsrch', defdname', hloop, hheld⟩ :=
            ih (s := { s with dnsrch := dnsrch, defdname := defdname }) hnames.2 hconcat
          rw [hlen, hpacked] at hloop
          refine ⟨dnsrch', defdname', ?_, ?_⟩
          · rw [← hloop, Nat.sub_sub]
            rfl
          · rw [hlen, hpacked, List.append_assoc, ← Nat.sub_sub h.defdname] at hheld
            change SearchHolds h (stored ++ fitting (k + 1) _ (name :: names)) dnsrch' defdname'
            rw [fitting, if_neg hsize, ← List.singleton_append]
            have hk' : h.maxDnsrch - (stored.length + 1) = k := by omega
            rw [hk'] at hheld
            exact hheld
    · -- no place is left
      have hnone : ∀ names', fitting (h.maxDnsrch - stored.length)
          (h.defdname - (packed stored).length) names' = [] := by
        intro names'
        rw [Nat.sub_eq_zero_of_le (Nat.le_of_not_lt hplace)]
        rfl
      rw [if_neg hplace, hnone, List.append_nil]
      exact ⟨s.dnsrch, s.defdname, rfl, hs⟩

/-- A `search` or `domain` directive replaces the search list. -/
theorem setSearch_holds {isDomain : Bool} {names : List Text} {stored : List Text}
    (hnames : ∀ name ∈ names, '\x00' ∉ name) (hs : SearchHolds h stored s.dnsrch s.defdname) :
    ∃ dnsrch defdname,
      setSearch h isDomain s names = some { s with dnsrch := dnsrch, defdname := defdname } ∧
      SearchHolds h (fitting h.maxDnsrch h.defdname (looked isDomain names)) dnsrch defdname := by
  let cleared : ResState := { s with dnsrch := List.replicate h.dnsrch none }
  have hempty : SearchHolds h [] cleared.dnsrch cleared.defdname := .empty h hs.size
  exact searchLoop_holds hnames hempty

/-- The search list as `dnsrch` points to it. -/
def ResState.search (s : ResState) : List Text :=
  (s.dnsrch.takeWhile Option.isSome).filterMap (Option.map (stringAt s.defdname))

theorem SearchHolds.search {names : List Text} (hs : SearchHolds h names s.dnsrch s.defdname) :
    s.search = names := by
  obtain ⟨rest, hrest⟩ := hs.storage
  have hpointers : s.dnsrch.takeWhile Option.isSome = (offsets 0 names).map some := by
    rw [hs.pointers, List.takeWhile_append_of_pos (by simp)]
    cases h.dnsrch - names.length <;> simp [List.replicate_succ]
  rw [ResState.search, hpointers, List.filterMap_map, ← hrest]
  have hread := @stringAt_packed [] rest names hs.strings
  calc List.filterMap (Option.map (stringAt (packed names ++ rest)) ∘ some) (offsets 0 names)
      = (offsets 0 names).map (stringAt (packed names ++ rest)) := by
        rw [← List.filterMap_eq_map]
        rfl
    _ = names := hread

/-! ## The servers -/

/-- An address and a port. -/
inductive Server where
  | ipv4 (addr : Addr4) (port : ℕ)
  | ipv6 (addr : Addr6) (port : ℕ)
  deriving DecidableEq

/-- What the two tables hold of a server. -/
def IsEntry (h : Header) (allocated : List SockaddrIn6) : Server → SockaddrIn → Option ℕ → Prop
  | .ipv4 addr port, entry, pointer => entry = ⟨h.afInet, port, addr⟩ ∧ pointer = none
  | .ipv6 addr port, entry, pointer =>
    entry.sinFamily = 0 ∧ ∃ i, pointer = some i ∧ allocated[i]? = some ⟨h.afInet6, port, addr⟩

/-- The tables hold the servers at their beginning, and every allocated object is either freed
or in `nsaddrs`. -/
structure ServersHold (h : Header) (servers : List Server) (s : ResState) : Prop where
  /-- `nscount` is their number. -/
  count : s.nscount = servers.length
  /-- There are at most `MAXNS`. -/
  bound : servers.length ≤ h.maxNs
  /-- The list keeps its size. -/
  listSize : s.nsaddrList.length = h.nsaddrList
  /-- So does `nsaddrs`. -/
  nsaddrsSize : s.nsaddrs.length = h.nsaddrs
  /-- The two tables agree on each server. -/
  entry : ∀ (i : ℕ) (server : Server), servers[i]? = some server → ∃ e p,
    s.nsaddrList[i]? = some e ∧ s.nsaddrs[i]? = some p ∧ IsEntry h s.allocated server e p
  /-- The entries behind them are empty. -/
  unused : ∀ i : ℕ, servers.length ≤ i → (∀ e, s.nsaddrList[i]? = some e → e.sinFamily = 0) ∧
    ∀ p, s.nsaddrs[i]? = some p → p = none
  /-- Each object is freed, or one pointer points to it. -/
  owned : (s.freed ++ s.nsaddrs.filterMap id).Perm (List.range s.allocated.length)

theorem ServersHold.zero (h : Header) : ServersHold h [] (ResState.initial h) where
  count := rfl
  bound := Nat.zero_le _
  listSize := List.length_replicate
  nsaddrsSize := List.length_replicate
  entry := nofun
  unused i _ := by
    refine ⟨fun e he => ?_, fun p hp => ?_⟩
    · rw [List.eq_of_mem_replicate (List.mem_of_getElem? he)]
    · exact List.eq_of_mem_replicate (List.mem_of_getElem? hp)
  owned := by
    have hnone : (List.replicate h.nsaddrs (none : Option ℕ)).filterMap id = [] := by
      rw [List.filterMap_eq_nil_iff]
      exact fun p hp => List.eq_of_mem_replicate hp
    change ([] ++ (List.replicate h.nsaddrs (none : Option ℕ)).filterMap id).Perm []
    rw [hnone]
    exact .nil

/-- Writing a pointer over another exchanges what is owned. -/
theorem owned_set {xs : List (Option ℕ)} {i : ℕ} {p : Option ℕ} (q : Option ℕ)
    (hp : xs[i]? = some p) :
    ((xs.set i q).filterMap id ++ p.toList).Perm (xs.filterMap id ++ q.toList) := by
  induction xs generalizing i with
  | nil => cases hp
  | cons x xs ih =>
    cases i with
    | zero =>
      cases hp
      have hcons : ∀ x : Option ℕ, (x :: xs).filterMap id = x.toList ++ xs.filterMap id := by
        intro x
        cases x <;> rfl
      rw [List.set_cons_zero, hcons, hcons]
      refine List.perm_append_comm.trans ?_
      rw [List.append_assoc]
      exact List.perm_append_comm.append_left _
    | succ i =>
      have hrest := ih hp
      cases x with
      | none => exact hrest
      | some a => exact hrest.cons a

theorem IsEntry.mono {allocated more : List SockaddrIn6} {server : Server} {e : SockaddrIn}
    {p : Option ℕ} (he : IsEntry h allocated server e p) :
    IsEntry h (allocated ++ more) server e p := by
  cases server with
  | ipv4 addr port => exact he
  | ipv6 addr port =>
    obtain ⟨hfamily, i, hp, hi⟩ := he
    have hlt := (List.getElem?_eq_some_iff.mp hi).1
    exact ⟨hfamily, i, hp, by rw [List.getElem?_append_left hlt, hi]⟩

/-- **One more server**, at the next index of both tables. -/
theorem ServersHold.add {servers : List Server} (server : Server) {list : List SockaddrIn}
    {nsaddrs : List (Option ℕ)} (more : List SockaddrIn6) {e : SockaddrIn} {p : Option ℕ}
    (hs : ServersHold h servers s) (hbound : servers.length < h.maxNs)
    (hlist : list[servers.length]? = some e) (hlistLen : list.length = h.nsaddrList)
    (hlistRest : ∀ i, i ≠ servers.length → list[i]? = s.nsaddrList[i]?)
    (hptr : nsaddrs[servers.length]? = some p) (hptrLen : nsaddrs.length = h.nsaddrs)
    (hptrRest : ∀ i, i ≠ servers.length → nsaddrs[i]? = s.nsaddrs[i]?)
    (hentry : IsEntry h (s.allocated ++ more) server e p)
    (howned : (s.freed ++ nsaddrs.filterMap id).Perm
      (List.range (s.allocated ++ more).length)) :
    ServersHold h (servers ++ [server])
      { s with nsaddrList := list, nsaddrs := nsaddrs, nscount := s.nscount + 1,
               allocated := s.allocated ++ more } := by
  have hlen : (servers ++ [server]).length = servers.length + 1 := List.length_append
  constructor
  · rw [hlen, ← hs.count]
  · rw [hlen]
    exact hbound
  · exact hlistLen
  · exact hptrLen
  · intro i other hi
    rcases Nat.lt_trichotomy i servers.length with hlt | rfl | hgt
    · rw [List.getElem?_append_left hlt] at hi
      obtain ⟨e', p', he', hp', hother⟩ := hs.entry i other hi
      exact ⟨e', p', (hlistRest i (Nat.ne_of_lt hlt)).trans he',
        (hptrRest i (Nat.ne_of_lt hlt)).trans hp', hother.mono⟩
    · rw [List.getElem?_concat_length] at hi
      cases hi
      exact ⟨e, p, hlist, hptr, hentry⟩
    · rw [List.getElem?_eq_none (by omega)] at hi
      cases hi
  · intro i hi
    rw [hlen] at hi
    have hunused := hs.unused i (by omega)
    have hne : i ≠ servers.length := by omega
    exact ⟨fun e' he' => hunused.1 e' ((hlistRest i hne).symm.trans he'),
      fun p' hp' => hunused.2 p' ((hptrRest i hne).symm.trans hp')⟩
  · exact howned

/-- The next place in the tables is there, and not in use. -/
theorem ServersHold.next {servers : List Server} (hs : ServersHold h servers s)
    (hbound : servers.length < h.maxNs) :
    (∃ e, s.nsaddrList[servers.length]? = some e ∧ e.sinFamily = 0) ∧
      s.nsaddrs[servers.length]? = some none := by
  have hlist : servers.length < s.nsaddrList.length := by
    rw [hs.listSize]
    exact Nat.lt_of_lt_of_le hbound h.maxNs_le_list
  have hptr : servers.length < s.nsaddrs.length := by
    rw [hs.nsaddrsSize]
    exact Nat.lt_of_lt_of_le hbound h.maxNs_le_nsaddrs
  have hunused := hs.unused servers.length (Nat.le_refl _)
  have hlist' := List.getElem?_eq_getElem hlist
  have hptr' := List.getElem?_eq_getElem hptr
  exact ⟨⟨_, hlist', hunused.1 _ hlist'⟩, by rw [hptr', hunused.2 _ hptr']⟩

/-- The server that an address stands for. -/
def serverOf (inet : Inet) (address : Text) : Option Server :=
  match inet.pton4 address with
  | some addr => some (.ipv4 addr 53)
  | none => (inet.pton6 address).map fun addr => .ipv6 addr 53

/-- **A `nameserver` directive adds its address**, if it is one. -/
theorem addNameserver_holds {servers : List Server} (inet : Inet) (address : Text)
    (hs : ServersHold h servers s) (hbound : servers.length < h.maxNs) :
    ∃ list nsaddrs nscount allocated freed,
      addNameserver h inet s address = some
        { s with nsaddrList := list, nsaddrs := nsaddrs, nscount := nscount,
                 allocated := allocated, freed := freed } ∧
      ServersHold h (servers ++ (serverOf inet address).toList)
        { s with nsaddrList := list, nsaddrs := nsaddrs, nscount := nscount,
                 allocated := allocated, freed := freed } := by
  obtain ⟨⟨ipv4, hlist, hfamily⟩, hptr⟩ := hs.next hbound
  have hlt : servers.length < s.nsaddrList.length := (List.getElem?_eq_some_iff.mp hlist).1
  have hlt' : servers.length < s.nsaddrs.length := (List.getElem?_eq_some_iff.mp hptr).1
  have hstore : ∀ x, store s.nsaddrList servers.length x =
      some (s.nsaddrList.set servers.length x) := fun x => if_pos hlt
  have hstore' : ∀ x, store s.nsaddrs servers.length x =
      some (s.nsaddrs.set servers.length x) := fun x => if_pos hlt'
  have hcount : s.nscount = servers.length := hs.count
  have hsetLen : ∀ x, (s.nsaddrList.set servers.length x).length = h.nsaddrList := fun x => by
    rw [List.length_set, hs.listSize]
  have hsetRest : ∀ x i, i ≠ servers.length →
      (s.nsaddrList.set servers.length x)[i]? = s.nsaddrList[i]? := fun x i hi =>
    List.getElem?_set_ne hi.symm
  have hrange : ∀ x, (List.range (s.allocated ++ [x]).length) =
      List.range s.allocated.length ++ [s.allocated.length] := fun x => by
    rw [List.length_append, List.length_singleton, List.range_succ]
  rw [addNameserver, serverOf]
  simp only [hcount, hlist, Option.bind_some, hstore, hstore', Option.map_some]
  cases inet.pton4 address with
  | some addr =>
    refine ⟨_, s.nsaddrs, _, s.allocated, s.freed, rfl, ?_⟩
    have hadd := hs.add (.ipv4 addr 53) [] hbound
      (List.getElem?_set_self hlt) (hsetLen _) (hsetRest _) hptr hs.nsaddrsSize (fun _ _ => rfl)
      ⟨rfl, rfl⟩ (by rw [List.append_nil]; exact hs.owned)
    rw [List.append_nil, hcount] at hadd
    exact hadd
  | none =>
    cases inet.pton6 address with
    | some addr =>
      refine ⟨_, _, _, _, s.freed, rfl, ?_⟩
      have hentry : IsEntry h (s.allocated ++ [⟨h.afInet6, 53, addr⟩]) (.ipv6 addr 53)
          { ipv4 with sinAddr := inet.spoiled address ipv4.sinAddr } (some s.allocated.length) :=
        ⟨hfamily, _, rfl, List.getElem?_concat_length⟩
      have hadd := hs.add (.ipv6 addr 53) [⟨h.afInet6, 53, addr⟩] hbound
        (List.getElem?_set_self hlt) (hsetLen _) (hsetRest _) (List.getElem?_set_self hlt')
        (by rw [List.length_set, hs.nsaddrsSize]) (fun i hi => List.getElem?_set_ne hi.symm)
        hentry (by
          have hset := owned_set (some s.allocated.length) hptr
          rw [Option.toList_none, List.append_nil] at hset
          rw [hrange]
          refine (hset.append_left s.freed).trans ?_
          rw [← List.append_assoc]
          exact hs.owned.append_right _)
      rw [hcount] at hadd
      exact hadd
    | none =>
      refine ⟨_, s.nsaddrs, _, _, _, rfl, ?_⟩
      rw [Option.map_none, Option.toList_none, List.append_nil]
      constructor
      · rfl
      · exact hs.bound
      · exact hsetLen _
      · exact hs.nsaddrsSize
      · intro i server hi
        obtain ⟨e, p, he, hp, hentry⟩ := hs.entry i server hi
        have hi' := (List.getElem?_eq_some_iff.mp hi).1
        exact ⟨e, p, (hsetRest _ i (Nat.ne_of_lt hi')).trans he, hp, hentry.mono⟩
      · intro i hi
        refine ⟨fun e he => ?_, (hs.unused i hi).2⟩
        by_cases heq : i = servers.length
        · subst heq
          rw [List.getElem?_set_self hlt] at he
          cases he
          exact hfamily
        · exact (hs.unused i hi).1 e ((hsetRest _ i heq).symm.trans he)
      · rw [hrange, List.append_assoc]
        refine (List.perm_append_comm.append_left s.freed).trans ?_
        rw [← List.append_assoc]
        exact hs.owned.append_right _

/-! ## Reading the tables, and closing -/

/-- The server at an index: where the family is zero, it is the one that `nsaddrs` points to. -/
def ResState.server (s : ResState) (i : ℕ) : Option Server :=
  s.nsaddrList[i]?.bind fun entry =>
    if entry.sinFamily = 0 then
      (s.nsaddrs[i]?.join.bind fun ipv6 => s.allocated[ipv6]?).map fun ipv6 =>
        .ipv6 ipv6.sin6Addr ipv6.sin6Port
    else some (.ipv4 entry.sinAddr entry.sinPort)

/-- The servers that the state lists. -/
def ResState.servers (s : ResState) : List Server := (List.range s.nscount).filterMap s.server

theorem filterMap_range {α : Type} (xs : List α) :
    (List.range xs.length).filterMap (fun i => xs[i]?) = xs := by
  induction xs with
  | nil => rfl
  | cons x xs ih =>
    rw [List.length_cons, List.range_succ_eq_map, List.filterMap_cons, List.filterMap_map]
    exact congrArg (x :: ·) ih

theorem ServersHold.server {servers : List Server} {i : ℕ} (hs : ServersHold h servers s)
    (hi : i < servers.length) : s.server i = servers[i]? := by
  obtain ⟨e, p, he, hp, hentry⟩ := hs.entry i _ (List.getElem?_eq_getElem hi)
  rw [ResState.server, he, hp, List.getElem?_eq_getElem hi]
  cases hserver : servers[i] with
  | ipv4 addr port =>
    rw [hserver] at hentry
    obtain ⟨rfl, rfl⟩ := hentry
    exact if_neg h.afInet_ne
  | ipv6 addr port =>
    rw [hserver] at hentry
    obtain ⟨hfamily, j, rfl, hj⟩ := hentry
    simp [hfamily, hj]

/-- **The tables are read as the servers.** -/
theorem ServersHold.servers {servers : List Server} (hs : ServersHold h servers s) :
    s.servers = servers := by
  rw [ResState.servers, hs.count]
  calc (List.range servers.length).filterMap s.server
      = (List.range servers.length).filterMap (fun i => servers[i]?) :=
        List.filterMap_congr fun i hi => hs.server (List.mem_range.mp hi)
    _ = servers := filterMap_range servers

/-- An entry without a family is freed; one with a family has nothing to free. -/
theorem closeEntry_eq {t : ResState} {i : ℕ} {e : SockaddrIn} {p : Option ℕ}
    (he : t.nsaddrList[i]? = some e) (hp : t.nsaddrs[i]? = some p)
    (hfamily : e.sinFamily ≠ 0 → p = none) :
    closeEntry t i = some
      { t with nsaddrs := t.nsaddrs.set i none, freed := t.freed ++ p.toList } := by
  obtain ⟨hlt, hget⟩ := List.getElem?_eq_some_iff.mp hp
  rw [closeEntry, he, Option.bind_some]
  by_cases hzero : e.sinFamily = 0
  · rw [if_pos hzero, hp, store, if_pos hlt]
    rfl
  · obtain rfl := hfamily hzero
    have hset : t.nsaddrs.set i none = t.nsaddrs := by
      rw [← hget, List.set_getElem_self]
    rw [if_neg hzero, hset, Option.toList_none, List.append_nil]

/-- Rounds of `CronetRsResNclose`. -/
theorem closeEntry_rounds {servers : List Server} (hs : ServersHold h servers s) {n : ℕ}
    (hn : n ≤ servers.length) :
    (List.range n).foldlM closeEntry s = some
      { s with nsaddrs := List.replicate n none ++ s.nsaddrs.drop n,
               freed := s.freed ++ (s.nsaddrs.take n).filterMap id } := by
  induction n with
  | zero =>
    rw [List.take_zero, List.filterMap_nil, List.append_nil]
    rfl
  | succ n ih =>
    obtain ⟨e, p, he, hp, hentry⟩ := hs.entry n _ (List.getElem?_eq_getElem hn)
    have hlt := (List.getElem?_eq_some_iff.mp hp).1
    have hdrop : s.nsaddrs.drop n = p :: s.nsaddrs.drop (n + 1) := by
      rw [List.drop_eq_getElem_cons hlt, (List.getElem?_eq_some_iff.mp hp).2]
    have hget : (List.replicate n none ++ s.nsaddrs.drop n)[n]? = some p := by
      rw [List.getElem?_append_right (by simp), hdrop]
      simp
    have hset : (List.replicate n none ++ s.nsaddrs.drop n).set n none =
        List.replicate (n + 1) none ++ s.nsaddrs.drop (n + 1) := by
      rw [List.set_append_right _ _ (by simp), hdrop, List.replicate_succ']
      simp
    have htake : (s.nsaddrs.take (n + 1)).filterMap id =
        (s.nsaddrs.take n).filterMap id ++ p.toList := by
      rw [List.take_add_one, hp, List.filterMap_append]
      cases p <;> rfl
    have hlen : n < (List.replicate n none ++ s.nsaddrs.drop n).length := by
      rw [List.length_append, List.length_replicate, hdrop, List.length_cons]
      omega
    have hfamily : e.sinFamily ≠ 0 → p = none := by
      intro hne
      cases hserver : servers[n] with
      | ipv4 addr port =>
        rw [hserver] at hentry
        exact hentry.2
      | ipv6 addr port =>
        rw [hserver] at hentry
        exact absurd hentry.1 hne
    let t : ResState := { s with
      nsaddrs := List.replicate n none ++ s.nsaddrs.drop n,
      freed := s.freed ++ (s.nsaddrs.take n).filterMap id }
    have hround : closeEntry t n = some
        { t with nsaddrs := t.nsaddrs.set n none, freed := t.freed ++ p.toList } :=
      closeEntry_eq he hget hfamily
    rw [List.range_succ, List.foldlM_append, ih (Nat.le_of_succ_le hn)]
    change (closeEntry t n).bind pure = _
    rw [hround, Option.bind_some]
    simp only [t, hset, htake, List.append_assoc]
    rfl

/-- **Closing frees what the table owns, each object once.** -/
theorem cronetRsResNclose_holds {servers : List Server} (hs : ServersHold h servers s) :
    ∃ nsaddrs, cronetRsResNclose s = some
        { s with nsaddrs := nsaddrs, freed := s.freed ++ s.nsaddrs.filterMap id } ∧
      ∀ p ∈ nsaddrs, p = none := by
  have hrest : ∀ p ∈ s.nsaddrs.drop servers.length, p = none := by
    intro p hp
    obtain ⟨i, hi⟩ := List.mem_iff_getElem?.mp hp
    rw [List.getElem?_drop] at hi
    exact (hs.unused (servers.length + i) (Nat.le_add_right _ _)).2 p hi
  have hnil : (s.nsaddrs.drop servers.length).filterMap id = [] :=
    List.filterMap_eq_nil_iff.mpr hrest
  have howned : (s.nsaddrs.take servers.length).filterMap id = s.nsaddrs.filterMap id := by
    conv_rhs => rw [← List.take_append_drop servers.length s.nsaddrs, List.filterMap_append]
    rw [hnil, List.append_nil]
  have hrounds := closeEntry_rounds hs (Nat.le_refl _)
  rw [howned] at hrounds
  refine ⟨List.replicate servers.length none ++ s.nsaddrs.drop servers.length, ?_, ?_⟩
  · have hclose : cronetRsResNclose s = (List.range servers.length).foldlM closeEntry s := by
      rw [cronetRsResNclose, hs.count]
    exact hclose.trans hrounds
  · intro p hp
    rcases List.mem_append.mp hp with hp | hp
    · exact List.eq_of_mem_replicate hp
    · exact hrest p hp

end TokioCronet.Dns
