import TokioCronet.Lib.CString

/-!
# The resolver state on OpenHarmony

`CronetRsResNinit` fills the C library's `__res_state` from `resolv.conf`, and
`CronetRsResNclose` frees what it has allocated. A file is read in pieces of at most 511
bytes; each is cut at its first `#`, split into words in place, and obeyed as one directive.
An address of the first family is stored in `nsaddr_list`; one of the second is allocated, and
its entry in `nsaddr_list` keeps the family zero, which is what marks it as owned.
-/

namespace TokioCronet.Dns

open CString

/-! ## The C library -/

/-- What the headers declare: the sizes of the arrays, the limits and the numbers. -/
structure Header where
  maxNs : ℕ
  maxDnsrch : ℕ
  nsaddrList : ℕ
  nsaddrs : ℕ
  dnsrch : ℕ
  defdname : ℕ
  maxNs_pos : 0 < maxNs
  maxNs_le_list : maxNs ≤ nsaddrList
  maxNs_le_nsaddrs : maxNs ≤ nsaddrs
  maxDnsrch_le : maxDnsrch ≤ dnsrch
  timeout : ℕ
  dflRetry : ℕ
  maxNdots : ℕ
  maxRetry : ℕ
  maxRetrans : ℕ
  recurse : ℕ
  defnames : ℕ
  dnsrchFlag : ℕ
  rotate : ℕ
  init : ℕ
  ulongMax : ℕ
  afInet : ℕ
  afInet6 : ℕ
  /-- Zero is `AF_UNSPEC`. -/
  afInet_ne : afInet ≠ 0

/-- An address of the first family. -/
abbrev Addr4 := BitVec 32

/-- An address of the second family. -/
abbrev Addr6 := BitVec 128

/-- `inet_pton` for the two families. -/
structure Inet where
  pton4 : Text → Option Addr4
  /-- What a conversion that fails leaves where the address would have been written. -/
  spoiled : Text → Addr4 → Addr4
  pton6 : Text → Option Addr6

/-- Ports are in host order here. -/
structure SockaddrIn where
  sinFamily : ℕ := 0
  sinPort : ℕ := 0
  sinAddr : Addr4 := 0
  deriving DecidableEq

/-- `sockaddr_in6`, with the port in host order. -/
structure SockaddrIn6 where
  sin6Family : ℕ := 0
  sin6Port : ℕ := 0
  sin6Addr : Addr6 := 0
  deriving DecidableEq

/-- `__res_state`, and the heap as far as it is used for it. -/
structure ResState where
  retrans : ℕ := 0
  retry : ℕ := 0
  options : ℕ := 0
  nscount : ℕ := 0
  nsaddrList : List SockaddrIn
  /-- Pointers to what has been allocated, by number. -/
  nsaddrs : List (Option ℕ)
  /-- Pointers into `defdname`. -/
  dnsrch : List (Option ℕ)
  defdname : Text
  ndots : ℕ := 0
  /-- Everything that has been allocated. -/
  allocated : List SockaddrIn6 := []
  /-- What has been freed, in order. -/
  freed : List ℕ := []
  deriving DecidableEq

/-! ## The program -/

variable (h : Header) (inet : Inet)

/-- `memset` -/
def ResState.zero : ResState where
  nsaddrList := List.replicate h.nsaddrList {}
  nsaddrs := List.replicate h.nsaddrs none
  dnsrch := List.replicate h.dnsrch none
  defdname := List.replicate h.defdname '\x00'

/-- What `CronetRsResNinit` fills in before it opens the file. -/
def ResState.initial : ResState :=
  { ResState.zero h with
    retrans := h.timeout,
    retry := h.dflRetry,
    ndots := 1,
    options := h.recurse ||| h.defnames ||| h.dnsrchFlag }

/-- The separators of `strtok_r`. -/
def isSeparator (c : Char) : Bool := c ∈ [' ', '\t', '\r', '\n']

/-- What of a piece is looked at: a string of C ends at a zero, and a comment is cut off. -/
def visible (line : Text) : Text := (line.takeWhile (· ≠ '\x00')).takeWhile (· ≠ '#')

/-- The branch of `nameserver`, with a place left in the list. -/
def addNameserver (s : ResState) (address : Text) : Option ResState :=
  let index := s.nscount
  s.nsaddrList[index]?.bind fun ipv4 =>
    match inet.pton4 address with
    | some addr =>
      (store s.nsaddrList index ⟨h.afInet, 53, addr⟩).map fun list =>
        { s with nsaddrList := list, nscount := s.nscount + 1 }
    | none =>
      (store s.nsaddrList index { ipv4 with sinAddr := inet.spoiled address ipv4.sinAddr }).bind
        fun list =>
          let ipv6 := s.allocated.length
          match inet.pton6 address with
          | some addr =>
            (store s.nsaddrs index (some ipv6)).map fun nsaddrs =>
              { s with
                nsaddrList := list,
                nsaddrs := nsaddrs,
                nscount := s.nscount + 1,
                allocated := s.allocated ++ [⟨h.afInet6, 53, addr⟩] }
          | none =>
            some { s with
              nsaddrList := list,
              allocated := s.allocated ++ [{}],
              freed := s.freed ++ [ipv6] }

/-- The loop of `search` and `domain`, with `search_count`, `search_storage` and
`search_storage_left`. -/
def searchLoop (isDomain : Bool) : ℕ → ℕ → ℕ → List Text → ResState → Option ResState
  | _, _, _, [], s => some s
  | count, storage, left, domain :: names, s =>
    if count < h.maxDnsrch then
      let length := domain.length + 1
      if left < length then some s
      else
        (copy s.defdname storage (domain ++ ['\x00'])).bind fun defdname =>
          (store s.dnsrch count (some storage)).bind fun dnsrch =>
            let s := { s with defdname := defdname, dnsrch := dnsrch }
            if isDomain then some s
            else searchLoop isDomain (count + 1) (storage + length) (left - length) names s
    else some s

/-- The branch of `search` and `domain`. -/
def setSearch (isDomain : Bool) (s : ResState) (names : List Text) : Option ResState :=
  searchLoop h isDomain 0 0 h.defdname names
    { s with dnsrch := List.replicate h.dnsrch none }

/-- One word behind `options`. -/
def setOption (s : ResState) (option : Text) : ResState :=
  if "ndots:".toList <+: option then
    { s with ndots := min (strtoul h.ulongMax (option.drop 6)) h.maxNdots }
  else if "attempts:".toList <+: option then
    { s with retry := min (strtoul h.ulongMax (option.drop 9)) h.maxRetry }
  else if "timeout:".toList <+: option then
    { s with retrans := min (strtoul h.ulongMax (option.drop 8)) h.maxRetrans }
  else if option = "rotate".toList then { s with options := s.options ||| h.rotate }
  else s

/-- What is done for the words of a piece. -/
def obey (s : ResState) : List Text → Option ResState
  | [] => some s
  | directive :: arguments =>
    if directive = "nameserver".toList ∧ s.nscount < h.maxNs then
      match arguments with
      | [] => some s
      | address :: _ => addNameserver h inet s address
    else if directive = "search".toList ∨ directive = "domain".toList then
      setSearch h (directive = "domain".toList) s arguments
    else if directive = "options".toList then some (arguments.foldl (setOption h) s)
    else some s

/-- The words of a piece. -/
def wordsOf (line : Text) : List Text := words isSeparator (visible line)

/-- The pieces that `fgets` returns, with a buffer of 512 bytes. -/
def readPieces (content : Text) : List Text := pieces 512 (by decide) content

/-- `CronetRsResNinit`, of a file that may not be there. The result is none where a write has
left an array. -/
def cronetRsResNinit (file : Option Text) : Option (Int × ResState) :=
  match file with
  | none => some (-1, ResState.initial h)
  | some content =>
    (((readPieces content).map wordsOf).foldlM (obey h inet) (ResState.initial h)).map fun s =>
      if s.nscount = 0 then (-1, s) else (0, { s with options := s.options ||| h.init })

/-- One round of `CronetRsResNclose`. -/
def closeEntry (s : ResState) (i : ℕ) : Option ResState :=
  s.nsaddrList[i]?.bind fun entry =>
    if entry.sinFamily = 0 then
      s.nsaddrs[i]?.bind fun ipv6 =>
        (store s.nsaddrs i none).map fun nsaddrs =>
          { s with nsaddrs := nsaddrs, freed := s.freed ++ ipv6.toList }
    else some s

/-- `CronetRsResNclose` -/
def cronetRsResNclose (s : ResState) : Option ResState :=
  (List.range s.nscount).foldlM closeEntry s

end TokioCronet.Dns
