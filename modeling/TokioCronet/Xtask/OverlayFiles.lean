import TokioCronet.Lib.FileProg
import TokioCronet.Xtask.GnScan

/-!
# Files of the generated GN view

The tables of the committed files that replace something of the Chromium source tree, and the
functions that put links to them into the overlay. A file that is to be put below a directory
which is only a link so far needs that directory made first, with links to all that the source
has there.
-/

namespace TokioCronet.Overlay

open FileTree GnBlocks

/-! ## The host -/

/-- The host on which `xtask` runs, and its operating system. -/
structure Host extends Os where
  /-- `cfg!(target_os = "macos")` -/
  macos : Bool
  /-- `workspace_root` -/
  workspace : Path
  /-- `ANDROID_SDK_ROOT` -/
  androidSdkRoot : Option Path
  /-- `ANDROID_HOME` -/
  androidHome : Option Path
  /-- `HOME` -/
  home : Option Path
  /-- How many calls of a recursive function there is room for. -/
  stack : Nat
  /-- The text of an error. -/
  display : IoError → String

/-- `Path::display` -/
def displayPath (path : Path) : String := "/" ++ "/".intercalate path

variable (host : Host)

/-- `display_error` -/
def displayError (action : String) (error : IoError) : Fault :=
  .err s!"failed to {action}: {host.display error}"

/-- Looks at something that cannot fail. -/
def ask {α : Type} (f : Tree → Nat → α) : Prog Fault α :=
  .look fun t => .ok (f t (host.links + 1))

/-- Looks at something, or fails with what was to be done. -/
def query {α : Type} (action : String) (f : Tree → Nat → Except IoError α) : Prog Fault α :=
  .mapErr (displayError host action) (.look fun t => f t (host.links + 1))

/-- Makes a system call, or fails with what was to be done. -/
def make (action : String) (op : Op) (path : Path) : Prog Fault Unit :=
  .mapErr (displayError host action) (.call host.toOs op path)

/-- `fs::create_dir_all` -/
def makeDirAll (action : String) (path : Path) : Prog Fault Unit :=
  .mapErr (displayError host action) (.createDirAll host.toOs path)

/-- `fs::read_dir`, whose entries are those at its beginning. -/
def listDir (action : String) (path : Path) : Prog Fault (List Name) := do
  let names ← query host action (·.readDir · path)
  pure (host.order names)

/-! ## Links -/

/-- `ensure_symlink` -/
def ensureSymlink (target link : Path) : Prog Fault Unit := do
  let create := make host "create Cronet GN overlay link" (.symlink (.toPath target)) link
  let blocked : Prog Fault Unit :=
    .fail (.err s!"{displayPath link} already exists and is not the expected Cronet overlay link")
  match ← ask host (·.symlinkMetadata · link) with
  | .ok (.link existing) =>
    if existing = .toPath target then pure ()
    else do
      make host "replace Cronet overlay link" .removeFile link
      create
  | .ok (.file _) => do
    if ← ask host (·.isFile · target) then do
      make host "replace Cronet overlay file" .removeFile link
      create
    else blocked
  | .ok .dir => do if ← ask host (·.isDir · target) then pure () else blocked
  | .error _ => create

/-- `replace_generated_link_with_directory` -/
def replaceGeneratedLinkWithDirectory (path : Path) : Prog Fault Unit := do
  let create := makeDirAll host "create Cronet GN overlay directory" path
  match ← ask host (·.symlinkMetadata · path) with
  | .ok (.link _) => do
    make host "replace Cronet overlay link" .removeFile path
    create
  | .ok .dir => pure ()
  | .ok (.file _) => .fail (.err s!"{displayPath path} blocks the generated Cronet GN overlay")
  | .error _ => create

/-- `replace_generated_link_with_file` -/
def replaceGeneratedLinkWithFile (path : Path) : Prog Fault Unit := do
  match ← ask host (·.symlinkMetadata · path) with
  | .ok .dir => .fail (.err s!"{displayPath path} blocks the generated Cronet GN overlay")
  | .ok _ => make host "replace Cronet overlay link" .removeFile path
  | .error _ => pure ()

/-- The loops that put a link to each entry of a directory into another one, but for some. -/
def linkEntries (source overlay : Path) (skipped : Name → Bool) (names : List Name) :
    Prog Fault Unit :=
  .forEach (fun name =>
    if skipped name then pure () else ensureSymlink host (source ++ [name]) (overlay ++ [name]))
    names

/-! ## Tables -/

/-- `OverlayFile` -/
structure OverlayFile where
  dest : Path
  src : Path
  deriving DecidableEq

/-- `SourceWrapper` -/
structure SourceWrapper where
  dest : Path
  src : Path
  upstreamAlias : Path
  deriving DecidableEq

/-- `COMMON` -/
def COMMON : List OverlayFile :=
  [⟨["BUILD.gn"], ["common", "BUILD.gn"]⟩,
    ⟨["third_party", "angle", "dotfile_settings.gni"],
      ["common", "third_party", "angle", "dotfile_settings.gni"]⟩,
    ⟨["components", "cronet", "BUILD.gn"], ["common", "components", "cronet", "BUILD.gn"]⟩,
    ⟨["components", "cronet", "native", "BUILD.gn"],
      ["common", "components", "cronet", "native", "BUILD.gn"]⟩,
    ⟨["third_party", "rust", "chromium_crates_io", "vendor", "cxx-v1", "include", "cxx.h"],
      ["common", "third_party", "rust", "chromium_crates_io", "vendor", "cxx-v1", "include",
        "cxx.h"]⟩]

/-- `ANDROID` -/
def ANDROID : List OverlayFile :=
  [⟨["BUILD.gn"], ["android", "BUILD.gn"]⟩,
    ⟨["net", "android", "java", "src", "org", "chromium", "net", "ProxyChangeListener.java"],
      ["android", "net", "android", "java", "src", "org", "chromium", "net",
        "ProxyChangeListener.java"]⟩,
    ⟨["build", "config", "gclient_args.gni"],
      ["android", "build", "config", "gclient_args.gni"]⟩,
    ⟨["build", "config", "BUILDCONFIG.gn"], ["android", "build", "config", "BUILDCONFIG.gn"]⟩,
    ⟨["build", "config", "compiler", "BUILD.gn"],
      ["android", "build", "config", "compiler", "BUILD.gn"]⟩]

/-- `ANDROID_MAC_HOST` -/
def ANDROID_MAC_HOST : List OverlayFile :=
  [⟨["build", "config", "android", "config.gni"],
      ["android", "build", "config", "android", "config.gni"]⟩,
    ⟨["third_party", "jdk", "BUILD.gn"], ["android", "third_party", "jdk", "BUILD.gn"]⟩]

/-- `ANDROID_SOURCE_WRAPPERS` -/
def ANDROID_SOURCE_WRAPPERS : List SourceWrapper :=
  [⟨["base", "android", "linker", "ashmem.cc"],
      ["android", "base", "android", "linker", "ashmem.cc"],
      ["base", "android", "linker", "ashmem_upstream.cc"]⟩]

/-- `IOS` -/
def IOS : List SourceWrapper :=
  [⟨["base", "features.cc"], ["ios", "base", "features.cc"], ["base", "features_upstream.cc"]⟩]

/-- `OHOS` -/
def OHOS : List OverlayFile :=
  [⟨["cronet_rs_ohos_toolchain", "BUILD.gn"], ["ohos", "BUILD.gn"]⟩,
    ⟨["base", "allocator", "partition_allocator", "partition_alloc.gni"],
      ["ohos", "base", "allocator", "partition_allocator", "partition_alloc.gni"]⟩,
    ⟨["base", "allocator", "partition_allocator", "src", "partition_alloc", "BUILD.gn"],
      ["ohos", "base", "allocator", "partition_allocator", "src", "partition_alloc", "BUILD.gn"]⟩,
    ⟨["base", "process", "set_process_title.cc"],
      ["ohos", "base", "process", "set_process_title.cc"]⟩,
    ⟨["build", "config", "BUILDCONFIG.gn"], ["ohos", "build", "config", "BUILDCONFIG.gn"]⟩,
    ⟨["build", "config", "rust.gni"], ["ohos", "build", "config", "rust.gni"]⟩,
    ⟨["build", "config", "compiler", "BUILD.gn"],
      ["ohos", "build", "config", "compiler", "BUILD.gn"]⟩]

/-- `OHOS_SOURCE_WRAPPERS` -/
def OHOS_SOURCE_WRAPPERS : List SourceWrapper :=
  [⟨["buildtools", "third_party", "libc++", "__config_site"],
      ["ohos", "buildtools", "third_party", "libc++", "__config_site"],
      ["buildtools", "third_party", "libc++", "__config_site_upstream"]⟩,
    ⟨["base", "allocator", "partition_allocator", "src", "partition_alloc", "aarch64_support.h"],
      ["ohos", "base", "allocator", "partition_allocator", "src", "partition_alloc",
        "aarch64_support.h"],
      ["base", "allocator", "partition_allocator", "src", "partition_alloc",
        "aarch64_support_upstream.h"]⟩,
    ⟨["base", "files", "scoped_file_linux.cc"], ["ohos", "base", "files", "scoped_file_linux.cc"],
      ["base", "files", "scoped_file_linux_upstream.cc"]⟩,
    ⟨["base", "debug", "stack_trace_posix.cc"], ["ohos", "base", "debug", "stack_trace_posix.cc"],
      ["base", "debug", "stack_trace_posix_upstream.cc"]⟩,
    ⟨["net", "dns", "public", "scoped_res_state.cc"],
      ["ohos", "net", "dns", "public", "scoped_res_state.cc"],
      ["net", "dns", "public", "scoped_res_state_upstream.cc"]⟩]

/-! ## Installing -/

/-- `materialize_parent` -/
def materializeParent (source overlay destRel : Path) : Prog Fault Unit := do
  let parent := (overlay ++ destRel).dropLast
  match ← ask host (·.symlinkMetadata · parent) with
  | .ok .dir => pure ()
  | _ => do
    replaceGeneratedLinkWithDirectory host parent
    let sourceParent := (source ++ destRel).dropLast
    if ← ask host (·.isDir · sourceParent) then do
      let names ← listDir host "list Chromium overlay parent" sourceParent
      linkEntries host sourceParent parent (fun name => some name = destRel.getLast?) names
    else pure ()

/-- Where a committed file is. -/
def committed (src : Path) : Path := host.workspace ++ ["xtask", "overlays"] ++ src

/-- `install_one` -/
def installOne (source overlay : Path) (file : OverlayFile) : Prog Fault Unit := do
  let src := committed host file.src
  let dest := overlay ++ file.dest
  if ← ask host (·.isFile · src) then do
    materializeParent host source overlay file.dest
    replaceGeneratedLinkWithFile host dest
    ensureSymlink host src dest
  else .fail (.err s!"committed overlay file {displayPath src} is missing")

/-- `install` -/
def install (source overlay : Path) (files : List OverlayFile) : Prog Fault Unit :=
  .forEach (installOne host source overlay) files

/-- One round of `install_source_wrappers`. -/
def installSourceWrapper (source overlay : Path) (wrapper : SourceWrapper) : Prog Fault Unit := do
  installOne host source overlay ⟨wrapper.dest, wrapper.src⟩
  let upstream := overlay ++ wrapper.upstreamAlias
  materializeParent host source overlay wrapper.upstreamAlias
  replaceGeneratedLinkWithFile host upstream
  ensureSymlink host (source ++ wrapper.dest) upstream

/-- `install_source_wrappers` -/
def installSourceWrappers (source overlay : Path) (wrappers : List SourceWrapper) :
    Prog Fault Unit :=
  .forEach (installSourceWrapper host source overlay) wrappers

end TokioCronet.Overlay
