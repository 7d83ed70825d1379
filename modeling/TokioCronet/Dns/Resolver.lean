import Mathlib.Data.List.Nodup
import Mathlib.Data.List.TakeWhile
import TokioCronet.Dns.Tables

/-!
# What `resolv.conf` says

A file is a list of lines, and a line is at most one directive. What the directives say
together is the first name servers, the search list of the last directive that has one, and
the last value of each option. This is what `CronetRsResNinit` makes of the pieces that it
reads; the pieces are the lines as long as the lines fit into its buffer.
-/

namespace TokioCronet.Dns

open CString

variable (h : Header) (inet : Inet)

/-! ## Directives -/

/-- A word behind `options` that means something. -/
inductive Setting where
  | ndots (value : ℕ)
  | attempts (value : ℕ)
  | timeout (value : ℕ)
  | rotate
  deriving DecidableEq

/-- What a line may be. -/
inductive Directive where
  | nameserver (server : Server)
  | search (names : List Text)
  | options (settings : List Setting)
  deriving DecidableEq

/-- The setting that a word behind `options` is. -/
def settingOf (option : Text) : Option Setting :=
  if "ndots:".toList <+: option then some (.ndots (strtoul h.ulongMax (option.drop 6)))
  else if "attempts:".toList <+: option then some (.attempts (strtoul h.ulongMax (option.drop 9)))
  else if "timeout:".toList <+: option then some (.timeout (strtoul h.ulongMax (option.drop 8)))
  else if option = "rotate".toList then some .rotate
  else none

/-- The directive that the words of a line are. `domain` has one name. -/
def directiveOf : List Text → Option Directive
  | [] => none
  | word :: arguments =>
    if word = "nameserver".toList then (arguments.head?.bind (serverOf inet)).map .nameserver
    else if word = "search".toList then some (.search arguments)
    else if word = "domain".toList then some (.search (arguments.take 1))
    else if word = "options".toList then some (.options (arguments.filterMap (settingOf h)))
    else none

/-- The server of a directive. -/
def Directive.server? : Directive → Option Server
  | .nameserver server => some server
  | _ => none

/-- The names of a directive. -/
def Directive.search? : Directive → Option (List Text)
  | .search names => some names
  | _ => none

/-- The settings of a directive. -/
def Directive.settings : Directive → List Setting
  | .options settings => settings
  | _ => []

/-- The value of `ndots:`. -/
def Setting.ndots? : Setting → Option ℕ
  | .ndots value => some value
  | _ => none

/-- The value of `attempts:`. -/
def Setting.attempts? : Setting → Option ℕ
  | .attempts value => some value
  | _ => none

/-- The value of `timeout:`. -/
def Setting.timeout? : Setting → Option ℕ
  | .timeout value => some value
  | _ => none

/-! ## What they say together -/

/-- The last value that is given, capped, or else the default. -/
def lastOr (value? : Setting → Option ℕ) (max : ℕ) (settings : List Setting) (other : ℕ) : ℕ :=
  ((settings.filterMap value?).getLast?.map (min · max)).getD other

/-- What a resolver state says, without where it stands. -/
structure Resolver where
  servers : List Server
  search : List Text
  ndots : ℕ
  retry : ℕ
  retrans : ℕ
  options : ℕ
  deriving DecidableEq

/-- The flags of a state, from its settings. -/
def optionsOf (settings : List Setting) : ℕ :=
  h.recurse ||| h.defnames ||| h.dnsrchFlag ||| if .rotate ∈ settings then h.rotate else 0

/-- **What the directives of a file say.** -/
def resolverOf (directives : List Directive) : Resolver :=
  let servers := (directives.filterMap Directive.server?).take h.maxNs
  let settings := directives.flatMap Directive.settings
  { servers := servers
    search := fitting h.maxDnsrch h.defdname
      ((directives.filterMap Directive.search?).getLast?.getD [])
    ndots := lastOr Setting.ndots? h.maxNdots settings 1
    retry := lastOr Setting.attempts? h.maxRetry settings h.dflRetry
    retrans := lastOr Setting.timeout? h.maxRetrans settings h.timeout
    options := optionsOf h settings ||| if servers = [] then 0 else h.init }

/-- What the state says. -/
def ResState.resolver (s : ResState) : Resolver :=
  ⟨s.servers, s.search, s.ndots, s.retry, s.retrans, s.options⟩

/-! ## Options -/

variable {h inet} {s : ResState}

/-- The numbers of the state are those of the settings. -/
structure OptionsHold (h : Header) (settings : List Setting) (ndots retry retrans options : ℕ) :
    Prop where
  /-- `ndots` is the last one, capped. -/
  ndots : ndots = lastOr Setting.ndots? h.maxNdots settings 1
  /-- `retry` is the last `attempts`, capped. -/
  retry : retry = lastOr Setting.attempts? h.maxRetry settings h.dflRetry
  /-- `retrans` is the last `timeout`, capped. -/
  retrans : retrans = lastOr Setting.timeout? h.maxRetrans settings h.timeout
  /-- The flags are those of `rotate`. -/
  options : options = optionsOf h settings

theorem lastOr_concat_some {value? : Setting → Option ℕ} {max other value : ℕ}
    {settings : List Setting} {x : Setting} (hx : value? x = some value) :
    lastOr value? max (settings ++ [x]) other = min value max := by
  simp [lastOr, hx]

theorem lastOr_concat_none {value? : Setting → Option ℕ} {max other : ℕ}
    {settings : List Setting} {x : Setting} (hx : value? x = none) :
    lastOr value? max (settings ++ [x]) other = lastOr value? max settings other := by
  simp [lastOr, hx]

theorem optionsOf_concat {settings : List Setting} {x : Setting} (hx : x ≠ .rotate) :
    optionsOf h (settings ++ [x]) = optionsOf h settings := by
  simp [optionsOf, hx.symm]

theorem optionsOf_rotate (settings : List Setting) :
    optionsOf h (settings ++ [.rotate]) = optionsOf h settings ||| h.rotate := by
  rw [optionsOf, optionsOf, if_pos (by simp)]
  split_ifs
  · rw [Nat.or_assoc _ h.rotate, Nat.or_self]
  · rw [Nat.or_zero]

theorem setOption_holds {settings : List Setting} (option : Text)
    (hs : OptionsHold h settings s.ndots s.retry s.retrans s.options) :
    ∃ ndots retry retrans options,
      setOption h s option =
        { s with ndots := ndots, retry := retry, retrans := retrans, options := options } ∧
      OptionsHold h (settings ++ (settingOf h option).toList) ndots retry retrans options := by
  unfold setOption settingOf
  split_ifs
  · refine ⟨_, s.retry, s.retrans, s.options, rfl, ?_⟩
    exact ⟨(lastOr_concat_some rfl).symm, hs.retry.trans (lastOr_concat_none rfl).symm,
      hs.retrans.trans (lastOr_concat_none rfl).symm,
      hs.options.trans (optionsOf_concat (x := .ndots _) nofun).symm⟩
  · refine ⟨s.ndots, _, s.retrans, s.options, rfl, ?_⟩
    exact ⟨hs.ndots.trans (lastOr_concat_none rfl).symm, (lastOr_concat_some rfl).symm,
      hs.retrans.trans (lastOr_concat_none rfl).symm,
      hs.options.trans (optionsOf_concat (x := .attempts _) nofun).symm⟩
  · refine ⟨s.ndots, s.retry, _, s.options, rfl, ?_⟩
    exact ⟨hs.ndots.trans (lastOr_concat_none rfl).symm,
      hs.retry.trans (lastOr_concat_none rfl).symm, (lastOr_concat_some rfl).symm,
      hs.options.trans (optionsOf_concat (x := .timeout _) nofun).symm⟩
  · refine ⟨s.ndots, s.retry, s.retrans, _, rfl, ?_⟩
    exact ⟨hs.ndots.trans (lastOr_concat_none rfl).symm,
      hs.retry.trans (lastOr_concat_none rfl).symm,
      hs.retrans.trans (lastOr_concat_none rfl).symm,
      by rw [Option.toList_some, optionsOf_rotate, hs.options]⟩
  · refine ⟨s.ndots, s.retry, s.retrans, s.options, rfl, ?_⟩
    rw [Option.toList_none, List.append_nil]
    exact hs

/-- The loop over the words behind `options`. -/
theorem setOptions_holds {settings : List Setting} (arguments : List Text)
    (hs : OptionsHold h settings s.ndots s.retry s.retrans s.options) :
    ∃ ndots retry retrans options,
      arguments.foldl (setOption h) s =
        { s with ndots := ndots, retry := retry, retrans := retrans, options := options } ∧
      OptionsHold h (settings ++ arguments.filterMap (settingOf h)) ndots retry retrans
        options := by
  induction arguments generalizing s settings with
  | nil =>
    refine ⟨s.ndots, s.retry, s.retrans, s.options, rfl, ?_⟩
    rw [List.filterMap_nil, List.append_nil]
    exact hs
  | cons option arguments ih =>
    obtain ⟨ndots, retry, retrans, options, hone, hheld⟩ := setOption_holds option hs
    rw [List.foldl_cons, hone]
    obtain ⟨ndots', retry', retrans', options', hfold, hheld'⟩ :=
      ih (s := { s with ndots := ndots, retry := retry, retrans := retrans,
                        options := options }) hheld
    refine ⟨ndots', retry', retrans', options', hfold, ?_⟩
    have happend : settings ++ (option :: arguments).filterMap (settingOf h) =
        settings ++ (settingOf h option).toList ++ arguments.filterMap (settingOf h) := by
      rw [List.filterMap_cons]
      cases settingOf h option <;> simp
    rw [happend]
    exact hheld'

/-! ## The run -/

/-- The state is what the directives say, up to the flag that is set at the end. -/
structure Holds (h : Header) (directives : List Directive) (s : ResState) : Prop where
  /-- The first servers. -/
  servers : ServersHold h ((directives.filterMap Directive.server?).take h.maxNs) s
  /-- As much of the last search list as fits. -/
  search : SearchHolds h (fitting h.maxDnsrch h.defdname
    ((directives.filterMap Directive.search?).getLast?.getD [])) s.dnsrch s.defdname
  /-- The last value of each option. -/
  options : OptionsHold h (directives.flatMap Directive.settings) s.ndots s.retry s.retrans
    s.options

theorem Holds.initial (h : Header) : Holds h [] (ResState.initial h) where
  servers := by
    rw [List.filterMap_nil, List.take_nil]
    exact .zero h
  search := by
    have hnil : fitting h.maxDnsrch h.defdname [] = [] := by cases h.maxDnsrch <;> rfl
    have hempty := SearchHolds.empty h (List.length_replicate (n := h.defdname) (a := '\x00'))
    rw [List.filterMap_nil, List.getLast?_nil, Option.getD_none, hnil]
    exact hempty
  options := ⟨rfl, rfl, rfl, (Nat.or_zero _).symm⟩

/-- Nothing is left to do for a directive without an effect. -/
theorem Holds.skip {directives : List Directive} (hs : Holds h directives s) :
    Holds h (directives ++ (none : Option Directive).toList) s := by
  rw [Option.toList_none, List.append_nil]
  exact hs

/-- A server behind the others is among the first ones while there is a place. -/
theorem take_concat {α : Type} {xs : List α} {n : ℕ} (ys : List α) (hlt : (xs.take n).length < n)
    (hys : ys.length ≤ 1) : (xs ++ ys).take n = xs.take n ++ ys := by
  rw [List.length_take] at hlt
  rw [List.take_append, List.take_of_length_le (l := ys) (by omega)]

/-- Without a place the first servers stay what they are. -/
theorem take_full {α : Type} {xs : List α} {n : ℕ} (ys : List α)
    (hfull : ¬ (xs.take n).length < n) : (xs ++ ys).take n = xs.take n := by
  rw [List.length_take] at hfull
  exact List.take_append_of_le_length (by omega)

theorem Holds.concat {directives : List Directive} {directive : Directive}
    (hservers : ServersHold h
      ((directives.filterMap Directive.server? ++ directive.server?.toList).take h.maxNs) s)
    (hsearch : SearchHolds h (fitting h.maxDnsrch h.defdname
      ((directive.search?.or (directives.filterMap Directive.search?).getLast?).getD []))
      s.dnsrch s.defdname)
    (hoptions : OptionsHold h (directives.flatMap Directive.settings ++ directive.settings)
      s.ndots s.retry s.retrans s.options) :
    Holds h (directives ++ [directive]) s := by
  have htoList : ∀ {α : Type} (f : Directive → Option α), [directive].filterMap f =
      (f directive).toList := by
    intro α f
    rw [List.filterMap_cons]
    cases f directive <;> rfl
  have hlast : ((directives ++ [directive]).filterMap Directive.search?).getLast? =
      directive.search?.or (directives.filterMap Directive.search?).getLast? := by
    rw [List.filterMap_append, htoList, List.getLast?_append]
    cases directive.search? <;> rfl
  constructor
  · rw [List.filterMap_append, htoList]
    exact hservers
  · rw [hlast]
    exact hsearch
  · rw [List.flatMap_append, List.flatMap_singleton]
    exact hoptions

/-- A directive without a server leaves the servers as they are. -/
theorem ServersHold.other {servers : List Server} {dnsrch : List (Option ℕ)} {defdname : Text}
    {ndots retry retrans options : ℕ} (hs : ServersHold h servers s) :
    ServersHold h servers
      { s with dnsrch := dnsrch, defdname := defdname, ndots := ndots, retry := retry,
               retrans := retrans, options := options } :=
  ⟨hs.count, hs.bound, hs.listSize, hs.nsaddrsSize, hs.entry, hs.unused, hs.owned⟩

theorem obey_cons (word : Text) (arguments : List Text) :
    obey h inet s (word :: arguments) =
      if word = "nameserver".toList ∧ s.nscount < h.maxNs then
        match arguments with
        | [] => some s
        | address :: _ => addNameserver h inet s address
      else if word = "search".toList ∨ word = "domain".toList then
        setSearch h (word = "domain".toList) s arguments
      else if word = "options".toList then some (arguments.foldl (setOption h) s)
      else some s := rfl

/-- A `nameserver` line, with a place left or without one. -/
theorem obey_nameserver {directives : List Directive} {arguments : List Text}
    (hs : Holds h directives s) :
    ∃ s', obey h inet s ("nameserver".toList :: arguments) = some s' ∧
      Holds h (directives ++
        ((arguments.head?.bind (serverOf inet)).map .nameserver : Option Directive).toList) s' := by
  have hcount := hs.servers.count
  by_cases hplace : s.nscount < h.maxNs
  · rw [obey_cons, if_pos ⟨rfl, hplace⟩]
    cases arguments with
    | nil => exact ⟨s, rfl, hs.skip⟩
    | cons address arguments =>
      rw [hcount] at hplace
      obtain ⟨list, nsaddrs, nscount, allocated, freed, hadd, hheld⟩ :=
        addNameserver_holds inet address hs.servers hplace
      refine ⟨_, hadd, ?_⟩
      rw [List.head?_cons, Option.bind_some]
      cases hserver : serverOf inet address with
      | none =>
        rw [hserver, Option.toList_none, List.append_nil] at hheld
        exact Holds.skip ⟨hheld, hs.search, hs.options⟩
      | some server =>
        rw [hserver] at hheld
        refine Holds.concat ?_ hs.search ?_
        · rw [take_concat _ hplace (by simp [Directive.server?])]
          exact hheld
        · simp only [Directive.settings, List.append_nil]
          exact hs.options
  · have hnone : obey h inet s ("nameserver".toList :: arguments) = some s := by
      rw [obey_cons, if_neg fun hc => hplace hc.2, if_neg (by decide), if_neg (by decide)]
    refine ⟨s, hnone, ?_⟩
    rw [hcount] at hplace
    cases hserver : arguments.head?.bind (serverOf inet) with
    | none => exact hs.skip
    | some server =>
      refine Holds.concat ?_ hs.search ?_
      · rw [take_full _ hplace]
        exact hs.servers
      · simp only [Directive.settings, List.append_nil]
        exact hs.options

/-- A `search` or `domain` line. -/
theorem setSearch_run {directives : List Directive} {isDomain : Bool} {names : List Text}
    (hnames : ∀ name ∈ names, '\x00' ∉ name) (hs : Holds h directives s) :
    ∃ s', setSearch h isDomain s names = some s' ∧
      Holds h (directives ++ [.search (looked isDomain names)]) s' := by
  obtain ⟨dnsrch, defdname, hset, hheld⟩ := setSearch_holds hnames hs.search
  refine ⟨_, hset, Holds.concat ?_ hheld ?_⟩
  · simp only [Directive.server?, Option.toList_none, List.append_nil]
    exact hs.servers.other
  · simp only [Directive.settings, List.append_nil]
    exact hs.options

/-- **One piece**: the state is what its directive says in addition. -/
theorem obey_holds (inet : Inet) {directives : List Directive} {words : List Text}
    (hwords : ∀ word ∈ words, '\x00' ∉ word) (hs : Holds h directives s) :
    ∃ s', obey h inet s words = some s' ∧
      Holds h (directives ++ (directiveOf h inet words).toList) s' := by
  cases words with
  | nil => exact ⟨s, rfl, hs.skip⟩
  | cons word arguments =>
    rw [List.forall_mem_cons] at hwords
    by_cases hname : word = "nameserver".toList
    · subst hname
      exact obey_nameserver hs
    · rw [obey_cons, directiveOf, if_neg fun hc => hname hc.1, if_neg hname]
      by_cases hsearch : word = "search".toList
      · subst hsearch
        exact setSearch_run hwords.2 hs
      · rw [if_neg hsearch]
        by_cases hdomain : word = "domain".toList
        · subst hdomain
          exact setSearch_run hwords.2 hs
        · rw [if_neg (not_or.mpr ⟨hsearch, hdomain⟩), if_neg hdomain]
          split_ifs
          · obtain ⟨ndots, retry, retrans, options, hset, hheld⟩ :=
              setOptions_holds arguments hs.options
            refine ⟨_, congrArg some hset, Holds.concat ?_ hs.search hheld⟩
            simp only [Directive.server?, Option.toList_none, List.append_nil]
            exact hs.servers.other
          · exact ⟨s, rfl, hs.skip⟩

/-- **A whole run**, over the words of any pieces. -/
theorem foldlM_obey_holds (inet : Inet) {directives : List Directive}
    {pieces : List (List Text)} (hwords : ∀ words ∈ pieces, ∀ word ∈ words, '\x00' ∉ word)
    (hs : Holds h directives s) :
    ∃ s', pieces.foldlM (obey h inet) s = some s' ∧
      Holds h (directives ++ pieces.filterMap (directiveOf h inet)) s' := by
  induction pieces generalizing s directives with
  | nil =>
    refine ⟨s, rfl, ?_⟩
    rw [List.filterMap_nil, List.append_nil]
    exact hs
  | cons words pieces ih =>
    rw [List.forall_mem_cons] at hwords
    obtain ⟨s1, hone, hheld⟩ := obey_holds inet hwords.1 hs
    obtain ⟨s2, hrest, hheld'⟩ := ih hwords.2 hheld
    refine ⟨s2, ?_, ?_⟩
    · rw [List.foldlM_cons, hone]
      exact hrest
    · have happend : directives ++ (words :: pieces).filterMap (directiveOf h inet) =
          directives ++ (directiveOf h inet words).toList ++
            pieces.filterMap (directiveOf h inet) := by
        rw [List.filterMap_cons]
        cases directiveOf h inet words <;> simp
      rw [happend]
      exact hheld'

/-- **What the state says** at the end of a run. -/
theorem Holds.resolver {directives : List Directive} (hs : Holds h directives s)
    (hset : s.servers = [] ↔ s.nscount = 0) :
    (if s.nscount = 0 then s else { s with options := s.options ||| h.init }).resolver =
      resolverOf h directives := by
  have hservers := hs.servers.servers
  have hsearch := hs.search.search
  by_cases hzero : s.nscount = 0
  · rw [if_pos hzero]
    rw [← hset] at hzero
    rw [hservers] at hzero
    rw [ResState.resolver, resolverOf, hservers, hsearch, hs.options.ndots, hs.options.retry,
      hs.options.retrans, hs.options.options, if_pos hzero, Nat.or_zero]
  · rw [if_neg hzero]
    have hne := hzero
    rw [← hset, hservers] at hne
    change Resolver.mk s.servers s.search s.ndots s.retry s.retrans (s.options ||| h.init) = _
    rw [resolverOf, hservers, hsearch, hs.options.ndots, hs.options.retry, hs.options.retrans,
      hs.options.options, if_neg hne]

/-! ## Effects -/

/-- What one directive changes: a server, a search list as far as it fits, the last value of each
option, capped, and the flag. -/
structure Effect where
  server : Option Server := none
  search : Option (List Text) := none
  ndots : Option ℕ := none
  retry : Option ℕ := none
  retrans : Option ℕ := none
  rotate : Bool := false
  deriving DecidableEq

/-- The last value that is given, capped. -/
def lastOf (value? : Setting → Option ℕ) (max : ℕ) (settings : List Setting) : Option ℕ :=
  (settings.filterMap value?).getLast?.map (min · max)

/-- What a directive changes. -/
def Directive.effect (h : Header) (directive : Directive) : Effect where
  server := directive.server?
  search := directive.search?.map (fitting h.maxDnsrch h.defdname)
  ndots := lastOf Setting.ndots? h.maxNdots directive.settings
  retry := lastOf Setting.attempts? h.maxRetry directive.settings
  retrans := lastOf Setting.timeout? h.maxRetrans directive.settings
  rotate := .rotate ∈ directive.settings

/-- What the words of a line change. -/
def effectOf (h : Header) (inet : Inet) (words : List Text) : Effect :=
  ((directiveOf h inet words).map (Directive.effect h)).getD {}

/-- What directives change one after another, without those that change nothing. -/
def effects (h : Header) (directives : List Directive) : List Effect :=
  (directives.map (Directive.effect h)).filter (· ≠ {})

theorem filterMap_effects {α : Type*} {f : Effect → Option α} (hf : f {} = none)
    (directives : List Directive) :
    (effects h directives).filterMap f = directives.filterMap fun d => f (d.effect h) := by
  rw [effects, List.filterMap_filter, List.filterMap_map]
  refine List.filterMap_congr fun d _ => ?_
  by_cases hd : d.effect h = {}
  · simp [hd, hf]
  · simp [hd]

theorem effects_append (directives directives' : List Directive) :
    effects h (directives ++ directives') = effects h directives ++ effects h directives' := by
  rw [effects, List.map_append, List.filter_append]
  rfl

/-- The last value in all settings is the last one that a directive gives. -/
theorem lastOr_flatMap (value? : Setting → Option ℕ) (max other : ℕ)
    (directives : List Directive) :
    lastOr value? max (directives.flatMap Directive.settings) other =
      ((directives.filterMap fun d => lastOf value? max d.settings).getLast?).getD other := by
  rw [lastOr, List.filterMap_flatMap, List.getLast?_flatMap, ← List.getLast?_filterMap,
    ← List.getLast?_map, List.map_filterMap]
  rfl

/-- **The state depends on what the directives change**, and on nothing else of them. -/
theorem Holds.congr {directives directives' : List Directive}
    (heffects : effects h directives = effects h directives') (hs : Holds h directives s) :
    Holds h directives' s := by
  have hvalues {α : Type} (f : Effect → Option α) (hf : f {} = none) :
      (directives.filterMap fun d => f (d.effect h)) =
        directives'.filterMap fun d => f (d.effect h) := by
    rw [← filterMap_effects hf, heffects, filterMap_effects hf]
  have hnil : fitting h.maxDnsrch h.defdname [] = [] := by cases h.maxDnsrch <;> rfl
  have hsearch : ∀ ds : List Directive,
      fitting h.maxDnsrch h.defdname ((ds.filterMap Directive.search?).getLast?.getD []) =
        (ds.filterMap fun d => (d.effect h).search).getLast?.getD [] := by
    intro ds
    have hmap : (ds.filterMap fun d => (d.effect h).search) =
        (ds.filterMap Directive.search?).map (fitting h.maxDnsrch h.defdname) :=
      (List.map_filterMap).symm
    rw [hmap, List.getLast?_map]
    cases (ds.filterMap Directive.search?).getLast? with
    | none => exact hnil
    | some names => rfl
  have hrotate : ∀ ds : List Directive, Setting.rotate ∈ ds.flatMap Directive.settings ↔
      () ∈ ds.filterMap fun d => if (d.effect h).rotate then some () else none := by
    intro ds
    simp [List.mem_filterMap, Directive.effect]
  constructor
  · have hservers := hvalues Effect.server rfl
    change directives.filterMap Directive.server? = directives'.filterMap Directive.server?
      at hservers
    rw [← hservers]
    exact hs.servers
  · rw [hsearch, ← hvalues Effect.search rfl, ← hsearch]
    exact hs.search
  · obtain ⟨hndots, hretry, hretrans, hoptions⟩ := hs.options
    constructor
    · rw [hndots, lastOr_flatMap, lastOr_flatMap]
      exact congrArg (fun l => l.getLast?.getD 1) (hvalues Effect.ndots rfl)
    · rw [hretry, lastOr_flatMap, lastOr_flatMap]
      exact congrArg (fun l => l.getLast?.getD h.dflRetry) (hvalues Effect.retry rfl)
    · rw [hretrans, lastOr_flatMap, lastOr_flatMap]
      exact congrArg (fun l => l.getLast?.getD h.timeout) (hvalues Effect.retrans rfl)
    · rw [hoptions, optionsOf, optionsOf]
      simp only [hrotate]
      rw [hvalues (fun e => if e.rotate then some () else none) rfl]

/-! ## Lines and pieces -/

/-- The words of a line, which is cut at its first `#`. -/
def lineWords (line : Text) : List Text := words isSeparator (line.takeWhile (· ≠ '#'))

/-- The directives of a file, line by line. -/
def directives (h : Header) (inet : Inet) (content : Text) : List Directive :=
  (Lines.splitInclusive content).filterMap fun line => directiveOf h inet (lineWords line)

/-- A line is read as it is written: the first piece of it has its effect, and no other one has
any. -/
def WellRead (h : Header) (inet : Inet) (line : Text) : Prop :=
  ∀ first rest, readPieces line = first :: rest →
    effectOf h inet (wordsOf first) = effectOf h inet (lineWords line) ∧
      ∀ piece ∈ rest, effectOf h inet (wordsOf piece) = {}

/-- A line that fits into the buffer, without a zero, is read as it is written. -/
theorem wellRead_of_fits {line : Text} (hline : '\n' ∉ line.dropLast) (hlen : line.length < 512)
    (hzero : '\x00' ∉ line) : WellRead h inet line := by
  intro first rest hpieces
  have hne : line ≠ [] := by
    rintro rfl
    cases hpieces
  rw [readPieces, pieces_fits hline hne hlen] at hpieces
  cases hpieces
  have hwhole : line.takeWhile (· ≠ '\x00') = line :=
    List.takeWhile_eq_self_iff.mpr fun c hc => by simpa using ne_of_mem_of_not_mem hc hzero
  refine ⟨?_, nofun⟩
  rw [wordsOf, visible, hwhole, lineWords]

/-- The effects of the directives that words are. -/
theorem effects_filterMap_directiveOf (lines : List (List Text)) :
    effects h (lines.filterMap (directiveOf h inet)) =
      (lines.map (effectOf h inet)).filter (· ≠ {}) := by
  induction lines with
  | nil => rfl
  | cons words lines ih =>
    have hone : effects h (directiveOf h inet words).toList =
        [effectOf h inet words].filter (· ≠ {}) := by
      rw [effectOf]
      cases directiveOf h inet words with
      | none => rfl
      | some directive => rfl
    have hcons : (words :: lines).filterMap (directiveOf h inet) =
        (directiveOf h inet words).toList ++ lines.filterMap (directiveOf h inet) := by
      rw [List.filterMap_cons]
      cases directiveOf h inet words <;> rfl
    rw [hcons, effects_append, hone, ih, List.map_cons, ← List.filter_append, List.singleton_append]

/-- **Lines that are read as they are written** have the effects of the file. -/
theorem effects_read {content : Text}
    (hread : ∀ line ∈ Lines.splitInclusive content, WellRead h inet line) :
    effects h (((readPieces content).map wordsOf).filterMap (directiveOf h inet)) =
      effects h (directives h inet content) := by
  have hlines : directives h inet content =
      ((Lines.splitInclusive content).map lineWords).filterMap (directiveOf h inet) := by
    rw [directives, List.filterMap_map]
    rfl
  rw [hlines, effects_filterMap_directiveOf, effects_filterMap_directiveOf, readPieces,
    pieces_lines]
  generalize Lines.splitInclusive content = lines at hread
  induction lines with
  | nil => rfl
  | cons line lines ih =>
    rw [List.forall_mem_cons] at hread
    have hline : (((readPieces line).map wordsOf).map (effectOf h inet)).filter (· ≠ {}) =
        [effectOf h inet (lineWords line)].filter (· ≠ {}) := by
      cases hpieces : readPieces line with
      | nil =>
        rw [pieces_eq_nil hpieces]
        rfl
      | cons first rest =>
        obtain ⟨hfirst, hrest⟩ := hread.1 first rest hpieces
        have hnone : ((rest.map wordsOf).map (effectOf h inet)).filter (· ≠ {}) = [] := by
          rw [List.map_map, List.filter_eq_nil_iff]
          intro e he
          obtain ⟨piece, hpiece, rfl⟩ := List.mem_map.mp he
          simpa using hrest piece hpiece
        rw [List.map_cons, List.map_cons, hfirst, ← List.singleton_append, List.filter_append,
          hnone, List.append_nil]
    rw [List.flatMap_cons, List.map_append, List.map_append, List.filter_append, ih hread.2,
      List.map_cons, List.map_cons, ← List.singleton_append (l := List.map _ _), List.filter_append]
    exact congrArg (· ++ _) hline

/-! ## The two functions -/

/-- The strings of C that a piece is cut into have no zero. -/
theorem zero_notMem_wordsOf {piece word : Text} (hword : word ∈ wordsOf piece) :
    '\x00' ∉ word := by
  intro hzero
  have hvisible := mem_words hword hzero
  have hmem := (List.takeWhile_sublist _).subset hvisible
  simpa using List.mem_takeWhile_imp hmem

/-- What is allocated is freed, each object once, and every server of the second family by
closing. -/
structure FreedOnce (s closed : ResState) : Prop where
  /-- Nothing is freed twice or left. -/
  all : closed.freed.Perm (List.range s.allocated.length)
  /-- A server of the second family is freed by closing, and not before. -/
  closing : ∀ i addr port, i < s.nscount → s.server i = some (.ipv6 addr port) →
    ∃ ipv6, s.nsaddrs[i]? = some (some ipv6) ∧ ipv6 ∉ s.freed ∧ closed.freed.count ipv6 = 1
  /-- No pointer to it is left. -/
  cleared : ∀ p ∈ closed.nsaddrs, p = none

/-- The result and the state are what the lines of the file say. -/
structure SaysFile (h : Header) (inet : Inet) (content : Text) (result : Int) (s : ResState) :
    Prop where
  /-- The state is what the directives of the lines say. -/
  resolver : s.resolver = resolverOf h (directives h inet content)
  /-- The search list is the longest beginning, of the names of the last directive that has
  some, that fits into `dnsrch` and `defdname`. -/
  search : let names :=
      ((directives h inet content).filterMap Directive.search?).getLast?.getD []
    s.search <+: names ∧ Fits h.maxDnsrch h.defdname s.search ∧
      ∀ start, start <+: names → Fits h.maxDnsrch h.defdname start → start <+: s.search
  /-- The result says whether there is a server. -/
  result : result = -1 ↔ ∀ line ∈ Lines.splitInclusive content, ∀ server,
    directiveOf h inet (lineWords line) ≠ some (.nameserver server)

theorem freedOnce_closing {servers : List Server} (hs : ServersHold h servers s) :
    ∃ closed, cronetRsResNclose s = some closed ∧ FreedOnce s closed := by
  obtain ⟨nsaddrs, hclose, hnone⟩ := cronetRsResNclose_holds hs
  refine ⟨_, hclose, hs.owned, fun i addr port hi hserver => ?_, hnone⟩
  rw [hs.count] at hi
  rw [hs.server hi] at hserver
  obtain ⟨e, p, -, hp, -, ipv6, rfl, -⟩ := hs.entry i _ hserver
  have hmem : ipv6 ∈ s.nsaddrs.filterMap id :=
    List.mem_filterMap.mpr ⟨some ipv6, List.mem_of_getElem? hp, rfl⟩
  have hnodup : (s.freed ++ s.nsaddrs.filterMap id).Nodup :=
    hs.owned.nodup_iff.mpr List.nodup_range
  refine ⟨ipv6, hp, fun hfreed => ?_, ?_⟩
  · exact (List.nodup_append.mp hnodup).2.2 _ hfreed _ hmem rfl
  · exact List.count_eq_one_of_mem hnodup (List.mem_append_right _ hmem)

/-- There is a server just if a line has one. -/
theorem noServer_iff {content : Text} :
    ((directives h inet content).filterMap Directive.server?).take h.maxNs = [] ↔
      ∀ line ∈ Lines.splitInclusive content, ∀ server,
        directiveOf h inet (lineWords line) ≠ some (.nameserver server) := by
  have hpos := h.maxNs_pos
  rw [List.take_eq_nil_iff, or_iff_right (Nat.ne_of_gt hpos), List.filterMap_eq_nil_iff]
  constructor
  · intro hnone line hline server hdirective
    have hmem : Directive.nameserver server ∈ directives h inet content :=
      List.mem_filterMap.mpr ⟨line, hline, hdirective⟩
    cases hnone _ hmem
  · intro hnone directive hmem
    obtain ⟨line, hline, hdirective⟩ := List.mem_filterMap.mp hmem
    cases directive with
    | nameserver server => exact absurd hdirective (hnone line hline server)
    | search names => rfl
    | options settings => rfl

/-- The state at the end, with the flag that says that it is filled. -/
def finished (h : Header) (s : ResState) : Int × ResState :=
  if s.nscount = 0 then (-1, s) else (0, { s with options := s.options ||| h.init })

theorem finished_servers {servers : List Server} (hs : ServersHold h servers s) :
    ServersHold h servers (finished h s).2 := by
  unfold finished
  split_ifs
  · exact hs
  · exact hs.other

theorem finished_says {content : Text} (hs : Holds h (directives h inet content) s) :
    SaysFile h inet content (finished h s).1 (finished h s).2 := by
  have hcount : s.nscount = 0 ↔
      ((directives h inet content).filterMap Directive.server?).take h.maxNs = [] := by
    rw [hs.servers.count, List.length_eq_zero_iff]
  have hset : s.servers = [] ↔ s.nscount = 0 := by rw [hcount, hs.servers.servers]
  have hresolver := hs.resolver hset
  have hsearch : (finished h s).2.search = s.search := by
    unfold finished
    split_ifs
    · rfl
    · rfl
  constructor
  · rw [← hresolver, finished, apply_ite Prod.snd]
  · rw [hsearch, hs.search.search]
    exact fitting_longest _ _ _
  · rw [← noServer_iff, ← hcount, finished]
    split_ifs with hzero
    · exact iff_of_true rfl hzero
    · exact iff_of_false (by decide) hzero

/-- **The resolver state, for every file.** No write leaves an array, and what is allocated is
freed once. The result and the state are what the lines of the file say if each line is read as
it is written: a piece of 511 bytes has its effect, and what is left of it has none. -/
theorem resNinit_says_file (h : Header) (inet : Inet) (content : Text) :
    ∃ result s closed,
      cronetRsResNinit h inet (some content) = some (result, s) ∧
      cronetRsResNclose s = some closed ∧ FreedOnce s closed ∧
      ((∀ line ∈ Lines.splitInclusive content, WellRead h inet line) →
        SaysFile h inet content result s) := by
  have hwords : ∀ words ∈ (readPieces content).map wordsOf, ∀ word ∈ words, '\x00' ∉ word := by
    intro words hmem word hword
    obtain ⟨piece, -, rfl⟩ := List.mem_map.mp hmem
    exact zero_notMem_wordsOf hword
  obtain ⟨s, hrun, hheld⟩ := foldlM_obey_holds inet hwords (Holds.initial h)
  rw [List.nil_append] at hheld
  have hinit : cronetRsResNinit h inet (some content) = some (finished h s) := by
    rw [cronetRsResNinit, hrun]
    rfl
  obtain ⟨closed, hclose, hfreed⟩ := freedOnce_closing (finished_servers hheld.servers)
  refine ⟨_, _, closed, hinit, hclose, hfreed, fun hread => ?_⟩
  exact finished_says (hheld.congr (effects_read hread))

/-! ## Examples of files -/

/-- The headers of musl on a machine of 64 bits. -/
def musl : Header where
  maxNs := 3
  maxDnsrch := 6
  nsaddrList := 3
  nsaddrs := 3
  dnsrch := 7
  defdname := 256
  maxNs_pos := by decide
  maxNs_le_list := by decide
  maxNs_le_nsaddrs := by decide
  maxDnsrch_le := by decide
  timeout := 5
  dflRetry := 2
  maxNdots := 15
  maxRetry := 5
  maxRetrans := 30
  recurse := 0x40
  defnames := 0x80
  dnsrchFlag := 0x200
  rotate := 0x4000
  init := 1
  ulongMax := 2 ^ 64 - 1
  afInet := 2
  afInet6 := 10
  afInet_ne := by decide

/-- A number of an address. -/
def octet (digits : Text) : Option ℕ :=
  if digits ≠ [] ∧ digits.length ≤ 3 ∧ digits.all Char.isDigit ∧ decimal digits ≤ 255 then
    some (decimal digits)
  else none

/-- Four numbers with dots between them, and the shortest address of the second family. -/
def someInet : Inet where
  pton4 address :=
    match (address.splitOn '.').mapM octet with
    | some [a, b, c, d] => some (BitVec.ofNat 32 (((a * 256 + b) * 256 + c) * 256 + d))
    | _ => none
  spoiled _ addr := addr
  pton6 address := if address = "::1".toList then some 1 else none

/-- A file whose lines fit. -/
def smallFile : Text :=
  "nameserver 10.0.0.1 # near\nsearch a.example b\nnameserver ::1\noptions ndots:99\n".toList

theorem resNinit_says_file_small :
    ∃ s, cronetRsResNinit musl someInet (some smallFile) = some (0, s) ∧
      s.resolver = ⟨[.ipv4 0x0a000001 53, .ipv6 1 53], ["a.example".toList, "b".toList],
        15, 2, 5, 0x2c1⟩ := by
  obtain ⟨result, s, closed, hinit, -, -, hfile⟩ := resNinit_says_file musl someInet smallFile
  have hlines : ∀ line ∈ Lines.splitInclusive smallFile,
      '\n' ∉ line.dropLast ∧ line.length < 512 ∧ '\x00' ∉ line := by decide +kernel
  have hresolver := (hfile fun line hline =>
    wellRead_of_fits (hlines line hline).1 (hlines line hline).2.1 (hlines line hline).2.2).resolver
  have hzero : (cronetRsResNinit musl someInet (some smallFile)).map Prod.fst = some 0 := by
    decide +kernel
  rw [hinit] at hzero
  obtain rfl : result = 0 := Option.some.inj hzero
  refine ⟨s, hinit, hresolver.trans ?_⟩
  decide +kernel

/-- A comment of more than 511 bytes, which ends in an address. -/
def longComment : Text :=
  '#' :: (List.replicate 510 'x' ++ "nameserver 6.6.6.6\n".toList)

/-- **A long comment is obeyed.** -/
theorem long_comment_obeyed :
    ∃ s, cronetRsResNinit musl someInet (some longComment) = some (0, s) ∧
      s.servers = [.ipv4 0x06060606 53] ∧ ¬ SaysFile musl someInet longComment 0 s := by
  have hrun : (cronetRsResNinit musl someInet (some longComment)).map
      (fun p => (p.1, p.2.servers)) = some (0, [.ipv4 0x06060606 53]) := by
    decide +kernel
  obtain ⟨⟨result, s⟩, hinit, heq⟩ := Option.map_eq_some_iff.mp hrun
  obtain ⟨rfl, hservers⟩ := Prod.mk.inj heq
  have hnone : directives musl someInet longComment = [] := by decide +kernel
  refine ⟨s, hinit, hservers, fun hfile => ?_⟩
  have hresolver := congrArg Resolver.servers hfile.resolver
  rw [hnone] at hresolver
  cases hservers.symm.trans hresolver

end TokioCronet.Dns
