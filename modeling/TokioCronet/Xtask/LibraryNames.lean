import Mathlib.Data.List.Infix

/-!
# Names of native libraries

Two build stages ask whether a native library is there: `xtask`, which then skips the build,
and the build script of the crate, which then links. Each has its own test of the names in
the output directory. Both take a name for a library that has `.so.` anywhere in it, and
`xtask` takes the debug symbols of a library for the library.
-/

namespace TokioCronet.Xtask

/-- A file name, as its characters. -/
abbrev Name := List Char

/-- How the native library is linked. -/
inductive NativeLinkage where
  | dynamic
  | static
  deriving DecidableEq

variable {name : Name} {linkage : NativeLinkage}

/-! ## The task runner -/

/-- `Path::extension` of a file name. -/
def extension (name : Name) : Option Name :=
  let last := name.reverse.takeWhile (· ≠ '.')
  let before := (name.reverse.dropWhile (· ≠ '.')).drop 1
  if '.' ∉ name ∨ before = [] ∨ name = ['.', '.'] then none else some last.reverse

/-- `str::eq_ignore_ascii_case` -/
def eqIgnoreAsciiCase (a b : Name) : Bool := a.map Char.toLower == b.map Char.toLower

/-- `str::contains` -/
def contains (name pattern : Name) : Bool := decide (pattern <:+: name)

/-- `is_native_library_output` -/
def isNativeLibraryOutput (name : Name) : NativeLinkage → Bool
  | .dynamic =>
    ("libcronet.".toList.isPrefixOf name || "cronet.".toList.isPrefixOf name) &&
      (contains name ".so.".toList || (extension name).any fun value =>
        ["so", "dylib", "dll", "lib", "pdb"].any fun expected =>
          eqIgnoreAsciiCase value expected.toList)
  | .static =>
    (name == "libcronet_static.a".toList || name == "cronet_static.lib".toList) &&
      (extension name).any fun value =>
        ["a", "lib"].any fun expected => eqIgnoreAsciiCase value expected.toList

/-! ## The build script -/

/-- The name begins like a library's. -/
def cronetName (name : Name) : Bool :=
  "libcronet.".toList.isPrefixOf name || "cronet.".toList.isPrefixOf name

/-- The extension is one of these, in capital letters or not. -/
def hasExtension (name : Name) (expected : List String) : Bool :=
  (extension name).any fun value =>
    expected.any fun expected => eqIgnoreAsciiCase value expected.toList

/-- The test of `native_library_exists` in the build script. -/
def BuildScript.accepts (name : Name) : NativeLinkage → Bool
  | .dynamic =>
    cronetName name && (contains name ".so.".toList ||
      hasExtension name ["so", "dylib", "dll", "lib"])
  | .static => name == "libcronet_static.a".toList || name == "cronet_static.lib".toList

/-- `native_library_exists`, of a directory that may not be readable. -/
def BuildScript.nativeLibraryExists (directory : Option (List Name)) (linkage : NativeLinkage) :
    Bool :=
  directory.any fun names => names.any fun name => BuildScript.accepts name linkage

/-! ## Libraries -/

/-- Numbers with dots between them. -/
def isVersion (version : Name) : Bool :=
  version.all (fun c => c.isDigit || c = '.') && version.head?.any Char.isDigit &&
    version.getLast?.any Char.isDigit && !contains version "..".toList

/-- The name ends in `.so.` and a version. -/
def versioned (name : Name) : Bool :=
  name.tails.any fun tail => ".so.".toList.isPrefixOf tail && isVersion (tail.drop 4)

/-- A library or an import library of the linkage. -/
def IsLibrary (name : Name) : NativeLinkage → Prop
  | .dynamic => cronetName name = true ∧
      (hasExtension name ["so", "dylib", "dll", "lib"] = true ∨ versioned name = true)
  | .static => name = "libcronet_static.a".toList ∨ name = "cronet_static.lib".toList

/-- Files that hold debug symbols. -/
def hasSymbols (name : Name) : Bool := hasExtension name ["pdb", "dwp", "dwo", "debug", "dsym"]

/-- The two tests agree on a name, and take no other file for a library. -/
structure WellTold (name : Name) (linkage : NativeLinkage) : Prop where
  /-- They accept the same. -/
  same : isNativeLibraryOutput name linkage = BuildScript.accepts name linkage
  /-- What they accept is a library of the linkage. -/
  library : isNativeLibraryOutput name linkage = true ∨ BuildScript.accepts name linkage = true →
    IsLibrary name linkage ∧ hasSymbols name = false ∧ ¬ ".TOC".toList <:+ name

/-! ## Extensions -/

theorem hasExtension_cons (value : String) (expected : List String) :
    hasExtension name (value :: expected) =
      (hasExtension name [value] || hasExtension name expected) := by
  unfold hasExtension
  cases extension name with
  | none => rfl
  | some e => simp

/-- A name has one extension. -/
theorem hasExtension_common {xs ys : List String} (hx : hasExtension name xs = true)
    (hy : hasExtension name ys = true) :
    ∃ x ∈ xs, ∃ y ∈ ys, x.toList.map Char.toLower = y.toList.map Char.toLower := by
  obtain ⟨e, he, hx⟩ := (Option.any_eq_true _ _).mp hx
  obtain ⟨e', he', hy⟩ := (Option.any_eq_true _ _).mp hy
  obtain rfl := Option.some.inj (he.symm.trans he')
  obtain ⟨x, hmem, hx⟩ := List.any_eq_true.mp hx
  obtain ⟨y, hmem', hy⟩ := List.any_eq_true.mp hy
  exact ⟨x, hmem, y, hmem', (eq_of_beq hx).symm.trans (eq_of_beq hy)⟩

theorem extension_suffix {e : Name} (h : extension name = some e) : e <:+ name := by
  simp only [extension] at h
  split_ifs at h
  cases h
  have hpre := List.takeWhile_prefix (l := name.reverse) (p := fun c => decide (c ≠ '.'))
  simpa using List.reverse_suffix.mpr hpre

/-- The last character of a name is that of its extension. -/
theorem last_of_hasExtension {xs : List String} (h : hasExtension name xs = true)
    (hne : "" ∉ xs) :
    ∃ x ∈ xs, ∃ c, name.getLast? = some c ∧ x.toList.getLast?.map Char.toLower =
      some c.toLower := by
  obtain ⟨e, he, h⟩ := (Option.any_eq_true _ _).mp h
  obtain ⟨x, hmem, hx⟩ := List.any_eq_true.mp h
  have heq : e.map Char.toLower = x.toList.map Char.toLower := eq_of_beq hx
  obtain ⟨before, rfl⟩ := extension_suffix he
  have hlast := congrArg List.getLast? heq
  rw [List.getLast?_map, List.getLast?_map] at hlast
  cases hc : e.getLast? with
  | none =>
    rw [List.getLast?_eq_none_iff.mp hc] at heq
    have hnil : x.toList = [] := List.map_eq_nil_iff.mp heq.symm
    exact absurd (String.toList_eq_nil_iff.mp hnil ▸ hmem) hne
  | some c =>
    rw [hc] at hlast
    exact ⟨x, hmem, c, by rw [List.getLast?_append, hc]; rfl, hlast.symm⟩

theorem toLower_of_isDigit {c : Char} (h : c.isDigit = true) : c.toLower = c := by
  have hrange : 48 ≤ c.toNat ∧ c.toNat ≤ 57 := by
    simpa [Char.isDigit, UInt32.le_iff_toNat_le, ← Char.toNat_val] using h
  refine dif_neg fun hupper => ?_
  have hle : 65 ≤ c.toNat := UInt32.le_iff_toNat_le.mp hupper.1
  omega

theorem last_of_versioned (h : versioned name = true) :
    ∃ c, name.getLast? = some c ∧ c.isDigit = true := by
  obtain ⟨tail, hmem, h⟩ := List.any_eq_true.mp h
  rw [Bool.and_eq_true] at h
  obtain ⟨-, hversion⟩ := h
  simp only [isVersion, Bool.and_eq_true] at hversion
  obtain ⟨c, hc, hdigit⟩ := (Option.any_eq_true _ _).mp hversion.1.2
  obtain ⟨before, rfl⟩ := (List.mem_tails _ _).mp hmem
  obtain ⟨start, hstart⟩ := List.drop_suffix 4 tail
  refine ⟨c, ?_, hdigit⟩
  rw [← hstart, ← List.append_assoc, List.getLast?_append, hc]
  rfl

/-! ## Where the tests hold -/

/-- A name that ends in a character of none of the extensions has none of them. -/
theorem not_hasExtension_of_last {xs : List String} {c : Char} (hc : name.getLast? = some c)
    (hne : "" ∉ xs)
    (hlast : ∀ x ∈ xs, x.toList.getLast?.map Char.toLower ≠ some c.toLower) :
    hasExtension name xs = false := by
  by_contra hx
  obtain ⟨x, hmem, d, hd, hxd⟩ := last_of_hasExtension (Bool.of_not_eq_false hx) hne
  obtain rfl := Option.some.inj (hc.symm.trans hd)
  exact hlast x hmem hxd

theorem last_of_toc (h : ".TOC".toList <:+ name) : name.getLast? = some 'C' := by
  obtain ⟨before, rfl⟩ := h
  rw [List.getLast?_append]
  rfl

/-- A library is neither a file of debug symbols nor a table of contents. -/
theorem library_no_symbols (h : IsLibrary name linkage) :
    hasSymbols name = false ∧ ¬ ".TOC".toList <:+ name := by
  cases linkage with
  | static =>
    rcases h with rfl | rfl
    · exact ⟨by decide +kernel, by decide +kernel⟩
    · exact ⟨by decide +kernel, by decide +kernel⟩
  | dynamic =>
    rcases h.2 with hext | hversion
    · refine ⟨?_, fun htoc => ?_⟩
      · by_contra hsymbols
        obtain ⟨x, hx, y, hy, heq⟩ :=
          hasExtension_common hext (Bool.of_not_eq_false hsymbols)
        exact absurd heq (by revert x y; decide +kernel)
      · have hnot : hasExtension name ["so", "dylib", "dll", "lib"] = false :=
          not_hasExtension_of_last (last_of_toc htoc) (by decide) (by decide +kernel)
        rw [hnot] at hext
        cases hext
    · obtain ⟨c, hc, hdigit⟩ := last_of_versioned hversion
      refine ⟨not_hasExtension_of_last hc (by decide) fun x hx heq => ?_, fun htoc => ?_⟩
      · rw [toLower_of_isDigit hdigit] at heq
        have hletter : ∀ x ∈ ["pdb", "dwp", "dwo", "debug", "dsym"],
            (x.toList.getLast?.map Char.toLower).any Char.isDigit = false := by decide +kernel
        have hfalse := hletter x hx
        rw [heq, Option.any_some, hdigit] at hfalse
        cases hfalse
      · obtain rfl := Option.some.inj (hc.symm.trans (last_of_toc htoc))
        cases hdigit

theorem isNativeLibraryOutput_dynamic : isNativeLibraryOutput name .dynamic =
    (BuildScript.accepts name .dynamic || cronetName name && hasExtension name ["pdb"]) := by
  have hlists : hasExtension name ["so", "dylib", "dll", "lib", "pdb"] =
      (hasExtension name ["so", "dylib", "dll", "lib"] || hasExtension name ["pdb"]) := by
    simp only [hasExtension_cons _ (_ :: _), Bool.or_assoc]
  change (cronetName name && (contains name ".so.".toList || hasExtension name
    ["so", "dylib", "dll", "lib", "pdb"])) = _
  rw [hlists, BuildScript.accepts, ← Bool.and_or_distrib_left, Bool.or_assoc]

theorem isNativeLibraryOutput_static :
    isNativeLibraryOutput name .static = BuildScript.accepts name .static := by
  have hext : BuildScript.accepts name .static = true → ((extension name).any fun value =>
      ["a", "lib"].any fun expected => eqIgnoreAsciiCase value expected.toList) = true := by
    intro h
    rw [BuildScript.accepts, Bool.or_eq_true, beq_iff_eq, beq_iff_eq] at h
    rcases h with rfl | rfl
    · decide +kernel
    · decide +kernel
  exact Bool.and_eq_left_iff_imp.mpr hext

/-- **When the two tests can be relied on**: for a dynamic library with Cronet's name, if the
extension is not `pdb`, and `.so.` only stands where a version follows to the end or the name
ends like a library anyway. -/
theorem wellTold_iff (name : Name) (linkage : NativeLinkage) :
    WellTold name linkage ↔
      (linkage = .dynamic → cronetName name = true →
        hasExtension name ["pdb"] = false ∧
        (contains name ".so.".toList = true →
          hasExtension name ["so", "dylib", "dll", "lib"] = true ∨ versioned name = true)) := by
  cases linkage with
  | static =>
    refine ⟨fun _ => nofun, fun _ => ⟨isNativeLibraryOutput_static, fun haccepted => ?_⟩⟩
    rw [isNativeLibraryOutput_static, or_self, BuildScript.accepts, Bool.or_eq_true, beq_iff_eq,
      beq_iff_eq] at haccepted
    have hlibrary : IsLibrary name .static := haccepted
    exact ⟨hlibrary, library_no_symbols hlibrary⟩
  | dynamic =>
    constructor
    · intro h _ hname
      constructor
      · by_contra hpdb
        have hsymbols : hasSymbols name = true := by
          rw [hasSymbols, hasExtension_cons, Bool.of_not_eq_false hpdb]
          rfl
        have haccepted : isNativeLibraryOutput name .dynamic = true := by
          rw [isNativeLibraryOutput_dynamic, hname, Bool.of_not_eq_false hpdb]
          simp
        rw [(h.library (.inl haccepted)).2.1] at hsymbols
        cases hsymbols
      · intro hso
        have haccepted : BuildScript.accepts name .dynamic = true := by
          rw [BuildScript.accepts, hname, hso]
          rfl
        exact (h.library (.inr haccepted)).1.2
    · intro h
      have hsame : isNativeLibraryOutput name .dynamic = BuildScript.accepts name .dynamic := by
        rw [isNativeLibraryOutput_dynamic]
        cases hname : cronetName name with
        | false => exact Bool.or_false _
        | true =>
          rw [(h rfl hname).1]
          exact Bool.or_false _
      refine ⟨hsame, fun haccepted => ?_⟩
      rw [hsame, or_self, BuildScript.accepts, Bool.and_eq_true, Bool.or_eq_true] at haccepted
      have hlibrary : IsLibrary name .dynamic :=
        ⟨haccepted.1, haccepted.2.elim (h rfl haccepted.1).2 .inl⟩
      exact ⟨hlibrary, library_no_symbols hlibrary⟩

/-- Debug symbols are a library for `xtask` alone, a table of contents is one for both. -/
theorem symbols_accepted :
    isNativeLibraryOutput "cronet.dll.pdb".toList .dynamic = true ∧
      BuildScript.accepts "cronet.dll.pdb".toList .dynamic = false ∧
      ¬ WellTold "cronet.dll.pdb".toList .dynamic ∧
      BuildScript.accepts "libcronet.so.TOC".toList .dynamic = true ∧
      ¬ WellTold "libcronet.so.TOC".toList .dynamic := by
  refine ⟨by decide +kernel, by decide +kernel, fun h => ?_, by decide +kernel, fun h => ?_⟩
  · exact absurd h.same (by decide +kernel)
  · exact (h.library (.inr (by decide +kernel))).2.2 (by decide +kernel)

end TokioCronet.Xtask
