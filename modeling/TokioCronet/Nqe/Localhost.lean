import Mathlib.Data.List.DropRight
import TokioCronet.Nqe.State

/-!
# Which requests are skipped

`is_localhost` searches the whole URL for `://` and one of three hosts. The host of a URL is
only the part of the authority between the user info and the port, so the search finds too
much where a longer host begins like a local one, or a URL is embedded in another, and too
little behind user info.
-/

namespace TokioCronet.Nqe

/-- `scheme://` and what follows it. -/
structure SplitUrl where
  scheme : List Char
  after : List Char
  scheme_colon : ':' ∉ scheme

namespace SplitUrl

/-- The URL. -/
def text (u : SplitUrl) : Url := u.scheme ++ "://".toList ++ u.after

/-- Up to the path, the query or the fragment. -/
def authority (u : SplitUrl) : List Char := u.after.takeWhile fun c => !(c ∈ ['/', '?', '#'])

/-- What stands before the last `@` of the authority, if there is one. -/
def userInfo (u : SplitUrl) : Option (List Char) :=
  let before := u.authority.rdropWhile (· != '@')
  if before = [] then none else some before.dropLast

/-- The authority without the user info. -/
def hostPort (u : SplitUrl) : List Char := u.authority.rtakeWhile (· != '@')

/-- The authority without user info and port. -/
def host (u : SplitUrl) : List Char :=
  if u.hostPort.head? = some '[' then
    u.hostPort.takeWhile (· != ']') ++ (u.hostPort.dropWhile (· != ']')).take 1
  else u.hostPort.takeWhile (· != ':')

end SplitUrl

/-- The hosts that are local. -/
def localHosts : List (List Char) := ["127.0.0.1".toList, "localhost".toList, "[::1]".toList]

variable {u : SplitUrl}

/-- `://` and a local host occur in a text. -/
def Embeds (text : List Char) : Prop := ∃ name ∈ localHosts, "://".toList ++ name <:+: text

/-- A text begins with a local host. -/
def BeginsLocal (text : List Char) : Prop := ∃ name ∈ localHosts, name <+: text

/-- A host ends where the port follows, or nothing; brackets end it themselves. -/
def Ends (name more : List Char) : Prop :=
  more = [] ∨ more.head? = some ':' ∨ name.head? = some '['

/-- A text is a local host with a port or without. -/
def LocalPort (text : List Char) : Prop :=
  ∃ name ∈ localHosts, ∃ more, text = name ++ more ∧ Ends name more

theorem isLocalhost_iff {info : RequestFinishedInfo} {url : Url} (h : info.response = some url) :
    isLocalhost info = true ↔ Embeds url := by
  have hsplit : ["://127.0.0.1".toList, "://localhost".toList, "://[::1]".toList] =
      localHosts.map ("://".toList ++ ·) := by decide
  have hany : isLocalhost info =
      ["://127.0.0.1".toList, "://localhost".toList, "://[::1]".toList].any (contains url) := by
    rw [isLocalhost, h, List.any_cons, List.any_cons, List.any_cons, List.any_nil, Bool.or_false]
    exact Bool.or_assoc _ _ _
  rw [hany, hsplit, List.any_map, List.any_eq_true]
  exact exists_congr fun name => and_congr_right fun _ => decide_eq_true_iff

/-- A text that begins otherwise has the pattern, if at all, in the rest of it. -/
theorem infix_cons_ne {c d : Char} {pattern text : List Char} (hne : c ≠ d) :
    c :: pattern <:+: d :: text ↔ c :: pattern <:+: text := by
  rw [List.infix_cons_iff]
  refine or_iff_right fun hpre => ?_
  exact hne (List.cons_prefix_cons.mp hpre).1

/-- What occurs in a URL and begins with a colon, occurs from the colon of the scheme on. -/
theorem infix_text {name : List Char} :
    "://".toList ++ name <:+: u.text ↔ name <+: u.after ∨ "://".toList ++ name <:+: u.after := by
  obtain ⟨scheme, after, hcolon⟩ := u
  show ':' :: '/' :: '/' :: name <:+: scheme ++ [':', '/', '/'] ++ after ↔
    name <+: after ∨ ':' :: '/' :: '/' :: name <:+: after
  induction scheme with
  | nil =>
    show ':' :: '/' :: '/' :: name <:+: ':' :: '/' :: '/' :: after ↔ _
    rw [List.infix_cons_iff, infix_cons_ne (by decide), infix_cons_ne (by decide)]
    have hpre : ':' :: '/' :: '/' :: name <+: ':' :: '/' :: '/' :: after ↔ name <+: after :=
      List.prefix_append_right_inj [':', '/', '/']
    rw [hpre]
  | cons c scheme ih =>
    have hne : ':' ≠ c := fun heq => hcolon (heq ▸ List.mem_cons_self)
    rw [List.cons_append, List.cons_append, infix_cons_ne hne]
    exact ih fun hmem => hcolon (List.mem_cons_of_mem c hmem)

theorem embeds_iff : Embeds u.text ↔ BeginsLocal u.after ∨ Embeds u.after := by
  unfold Embeds BeginsLocal
  constructor
  · rintro ⟨name, hname, hinfix⟩
    rcases infix_text.mp hinfix with hpre | hinfix
    · exact .inl ⟨name, hname, hpre⟩
    · exact .inr ⟨name, hname, hinfix⟩
  · rintro (⟨name, hname, hpre⟩ | ⟨name, hname, hinfix⟩)
    · exact ⟨name, hname, infix_text.mpr (.inl hpre)⟩
    · exact ⟨name, hname, infix_text.mpr (.inr hinfix)⟩

/-- A prefix without what `p` rejects is a prefix of what `p` accepts. -/
theorem prefix_takeWhile {p : Char → Bool} {l text : List Char} (hl : ∀ c ∈ l, p c = true) :
    l <+: text.takeWhile p ↔ l <+: text := by
  constructor
  · exact fun h => h.trans (List.takeWhile_prefix p)
  · rintro ⟨rest, rfl⟩
    rw [List.takeWhile_append_of_pos hl]
    exact List.prefix_append l _

theorem beginsLocal_authority : BeginsLocal u.authority ↔ BeginsLocal u.after := by
  unfold BeginsLocal SplitUrl.authority
  refine exists_congr fun name => and_congr_right fun hname => prefix_takeWhile ?_
  have hall : ∀ name ∈ localHosts, name.all (fun c => !(c ∈ ['/', '?', '#'])) = true := by decide
  exact List.all_eq_true.mp (hall name hname)

/-! ## The parts of the authority -/

theorem hostPort_of_none (h : u.userInfo = none) : u.hostPort = u.authority := by
  simp only [SplitUrl.userInfo] at h
  split_ifs at h with hbefore
  rw [SplitUrl.hostPort, List.rtakeWhile_eq_self_iff]
  exact List.rdropWhile_eq_nil_iff.mp hbefore

theorem authority_of_some {info : List Char} (h : u.userInfo = some info) :
    u.authority = info ++ '@' :: u.hostPort := by
  simp only [SplitUrl.userInfo] at h
  split_ifs at h with hbefore
  cases h
  have hlast := List.rdropWhile_last_not (· != '@') u.authority hbefore
  rw [Bool.not_eq_true, bne_eq_false_iff_eq] at hlast
  have hbefore := List.dropLast_concat_getLast hbefore
  rw [hlast] at hbefore
  calc u.authority
      = u.authority.rdropWhile (· != '@') ++ u.hostPort :=
        List.rdropWhile_append_rtakeWhile.symm
    _ = (u.authority.rdropWhile (· != '@')).dropLast ++ ['@'] ++ u.hostPort := by rw [hbefore]
    _ = (u.authority.rdropWhile (· != '@')).dropLast ++ '@' :: u.hostPort := by simp

/-- No local name has an `@`, so it begins an authority only within the user info. -/
theorem beginsLocal_userInfo {info : List Char} (h : u.userInfo = some info) :
    BeginsLocal u.authority ↔ BeginsLocal info := by
  have hall : ∀ name ∈ localHosts, name.all (· != '@') = true := by decide
  unfold BeginsLocal
  refine exists_congr fun name => and_congr_right fun hname => ?_
  have hname := List.all_eq_true.mp (hall name hname)
  rw [authority_of_some h]
  refine ⟨fun hpre => ?_, fun hpre => hpre.trans (List.prefix_append _ _)⟩
  rcases List.prefix_or_prefix_of_prefix hpre (List.prefix_append info _) with hpre | ⟨rest, rfl⟩
  · exact hpre
  · rcases rest with _ | ⟨c, rest⟩
    · simp
    · have hc := (List.cons_prefix_cons.mp ((List.prefix_append_right_inj info).mp hpre)).1
      exact absurd (hname c (by simp)) (by rw [hc]; decide)

/-- The text in front of the first character that `p` rejects. -/
theorem takeWhile_of_ends {p : Char → Bool} {l more : List Char} (hl : ∀ c ∈ l, p c = true)
    (hmore : ∀ c ∈ more.head?, p c = false) : (l ++ more).takeWhile p = l := by
  rw [List.takeWhile_append_of_pos hl]
  cases more with
  | nil => exact List.append_nil l
  | cons c more => simp [hmore c rfl]

/-- The host is local where the authority says so behind its user info. -/
theorem host_local_iff : u.host ∈ localHosts ↔ LocalPort u.hostPort := by
  constructor
  · intro h
    unfold SplitUrl.host at h
    split_ifs at h with hbracket
    · -- the host begins with the bracket that the text begins with
      refine ⟨_, h, (u.hostPort.dropWhile (· != ']')).drop 1, ?_, .inr (.inr ?_)⟩
      · rw [List.append_assoc, List.take_append_drop, List.takeWhile_append_dropWhile]
      · cases htext : u.hostPort with
        | nil => rw [htext] at hbracket; cases hbracket
        | cons c text =>
          obtain rfl : c = '[' := by simpa [htext] using hbracket
          simp
    · refine ⟨_, h, u.hostPort.dropWhile (· != ':'), ?_, ?_⟩
      · exact List.takeWhile_append_dropWhile.symm
      · have hnot := List.head?_dropWhile_not (· != ':') u.hostPort
        cases hmore : u.hostPort.dropWhile (· != ':') with
        | nil => exact .inl rfl
        | cons c more =>
          rw [hmore] at hnot
          exact .inr (.inl (by simpa using hnot))
  · rintro ⟨name, hname, more, htext, hends⟩
    have hnames : ∀ name ∈ localHosts, name = "[::1]".toList ∨
        (name ≠ [] ∧ name.head? ≠ some '[') ∧ name.all (· != ':') = true := by decide
    have hhost : u.host = name := by
      rw [SplitUrl.host, htext]
      rcases hnames name hname with rfl | ⟨⟨hne, hbracket⟩, hcolon⟩
      · rfl
      · rw [List.head?_append_of_ne_nil _ hne, if_neg hbracket]
        refine takeWhile_of_ends (List.all_eq_true.mp hcolon) ?_
        rcases hends with rfl | hport | hbracketed
        · simp
        · simp [hport]
        · exact absurd hbracketed hbracket
    exact hhost ▸ hname

/-! ## Where the search and the host agree -/

/-- The URLs that the search is right about. -/
inductive HostShows (u : SplitUrl) : Prop
  /-- Without user info: behind a local name at the start the host ends, and a local host is
  named after another `://` only if one stands at the start too. -/
  | plain (info : u.userInfo = none)
      (ends : ∀ name ∈ localHosts, ∀ more, u.hostPort = name ++ more → Ends name more)
      (rest : Embeds u.after → BeginsLocal u.hostPort) : HostShows u
  /-- With user info: nothing local is named anywhere. -/
  | other {info : List Char} (some : u.userInfo = some info) (host : ¬ LocalPort u.hostPort)
      (begins : ¬ BeginsLocal info) (rest : ¬ Embeds u.after) : HostShows u
  /-- With user info before a local host: the user info begins like a local host, or a local
  host is named after another `://`. -/
  | named {info : List Char} (some : u.userInfo = some info) (host : LocalPort u.hostPort)
      (named : BeginsLocal info ∨ Embeds u.after) : HostShows u

/-- No local name is the beginning of another one. -/
theorem eq_of_begins {name name' : List Char} (h : name ∈ localHosts)
    (h' : name' ∈ localHosts) (hpre : name <+: name') : name = name' := by
  have hall : ∀ name ∈ localHosts, ∀ name' ∈ localHosts, name.isPrefixOf name' = true →
      name = name' := by decide
  exact hall name h name' h' (List.isPrefixOf_iff_prefix.mpr hpre)

theorem localPort_iff {text : List Char} : LocalPort text ↔ BeginsLocal text ∧
    ∀ name ∈ localHosts, ∀ more, text = name ++ more → Ends name more := by
  constructor
  · rintro ⟨name, hname, more, rfl, hends⟩
    refine ⟨⟨name, hname, List.prefix_append _ _⟩, fun name' hname' more' heq => ?_⟩
    have hsame : name = name' := by
      rcases List.prefix_or_prefix_of_prefix (List.prefix_append name more)
        (heq ▸ List.prefix_append name' more') with hpre | hpre
      · exact eq_of_begins hname hname' hpre
      · exact (eq_of_begins hname' hname hpre).symm
    subst hsame
    rwa [← List.append_cancel_left heq]
  · rintro ⟨⟨name, hname, more, rfl⟩, hends⟩
    exact ⟨name, hname, more, rfl, hends name hname more rfl⟩

/-- **A request is skipped for its host exactly when nothing else in the URL looks like a local
host, and no user info hides it.** -/
theorem skips_iff_host {s : NqeState} {info : RequestFinishedInfo} (hs : s.skipLocalhost = true)
    (hurl : info.response = some u.text) :
    (s.skips info = true ↔ u.host ∈ localHosts) ↔ HostShows u := by
  have hskips : s.skips info = true ↔ BeginsLocal u.authority ∨ Embeds u.after := by
    rw [NqeState.skips, hs, Bool.true_and, isLocalhost_iff hurl, embeds_iff, beginsLocal_authority]
  rw [hskips, host_local_iff]
  cases huser : u.userInfo with
  | none =>
    rw [← hostPort_of_none huser]
    constructor
    · intro h
      refine .plain huser (fun name hname more heq => ?_)
        fun hembeds => (localPort_iff.mp (h.mp (.inr hembeds))).1
      have hlocal := h.mp (.inl ⟨name, hname, heq ▸ List.prefix_append name more⟩)
      exact (localPort_iff.mp hlocal).2 name hname more heq
    · intro h
      cases h with
      | plain _ hends hrest =>
        refine ⟨fun hor => ?_, fun hlocal => .inl (localPort_iff.mp hlocal).1⟩
        exact localPort_iff.mpr ⟨hor.elim id hrest, hends⟩
      | other hsome => rw [huser] at hsome; cases hsome
      | named hsome => rw [huser] at hsome; cases hsome
  | some user =>
    rw [beginsLocal_userInfo huser]
    constructor
    · intro h
      by_cases hlocal : LocalPort u.hostPort
      · exact .named huser hlocal (h.mpr hlocal)
      · exact .other huser hlocal (fun hbegins => hlocal (h.mp (.inl hbegins)))
          fun hembeds => hlocal (h.mp (.inr hembeds))
    · intro h
      cases h with
      | plain hnone => rw [huser] at hnone; cases hnone
      | other hsome hhost hbegins hrest =>
        obtain rfl := Option.some.inj (huser.symm.trans hsome)
        exact iff_of_false (not_or.mpr ⟨hbegins, hrest⟩) hhost
      | named hsome hhost hnamed =>
        obtain rfl := Option.some.inj (huser.symm.trans hsome)
        exact iff_of_true hnamed hhost

/-- `https://user@example.test:8443/?next=http://other.test` is sampled. -/
def embedded : SplitUrl where
  scheme := "https".toList
  after := "user@example.test:8443/?next=http://other.test".toList
  scheme_colon := by decide

theorem skips_iff_host_embedded :
    (NqeState.skips {} { metrics := {}, response := some embedded.text } = true ↔
      embedded.host ∈ localHosts) ↔ HostShows embedded :=
  skips_iff_host rfl rfl

/-- **A longer host is skipped.** -/
theorem longer_host_skipped :
    let u : SplitUrl := ⟨"https".toList, "localhost.example.com/".toList, by decide⟩
    NqeState.skips {} { metrics := {}, response := some u.text } = true ∧
      u.host = "localhost.example.com".toList ∧ u.host ∉ localHosts := by
  decide +kernel

end TokioCronet.Nqe
