import TokioCronet.Lib.Utf8
import TokioCronet.Xtask.GnTestonly
import TokioCronet.Xtask.GnNamed
import TokioCronet.Xtask.OverlayFiles

/-!
# Writers of the generated GN view

`write_cronet_overlay` with all that it calls. The overlay has directories of its own, links
into the source tree and into the repository, and `BUILD.gn` files with some blocks removed;
what a run finds is what former runs have left. The recursion over the source tree ends with
the stack, at the latest.
-/

namespace TokioCronet.Overlay

open FileTree GnBlocks

/-! ## Texts -/

/-- `str::replacen` with a count of one -/
def replaceFirst (pattern into : Text) : Text → Text
  | [] => if pattern = [] then into else []
  | c :: rest =>
    if pattern <+: c :: rest then into ++ (c :: rest).drop pattern.length
    else c :: replaceFirst pattern into rest

/-- `remove_gn_block_with_header` -/
def removeGnBlockWithHeader (source header : Text) : Except Fault Text :=
  let target := String.ofList header
  match Offsets.find header source with
  | none => .error (.err s!"upstream BUILD.gn no longer defines {target}")
  | some callStart => removeNamedBlock header source callStart

/-- A text that has to be there is replaced. -/
def replaceUpstream (pattern into : Text) (message : String) (build : Text) : Except Fault Text :=
  if contains build pattern then .ok (replaceFirst pattern into build) else .error (.err message)

/-- `UNUSED_TRACE_PROCESSOR_TYPE` -/
def UNUSED_TRACE_PROCESSOR_TYPE : Text :=
  ("  if (!is_win) \x7b\n    libtrace_processor_target_type = \"source_set\"\n  \x7d else \x7b\n" ++
    "    libtrace_processor_target_type = \"component\"\n  \x7d\n\n").toList

/-- `UNUSED_TEST_TRACE_PROCESSOR_TYPE` -/
def UNUSED_TEST_TRACE_PROCESSOR_TYPE : Text :=
  ("_target_type = \"shared_library\"\nif (is_ios) \x7b\n" ++
    "  _target_type = \"ios_framework_bundle\"\n\x7d\n\n").toList

/-- `UNUSED_TEST_TYPE` -/
def UNUSED_TEST_TYPE : Text :=
  ("if (is_cronet_build) \x7b\n  _test_target_type = \"cronet_test\"\n\x7d else \x7b\n" ++
    "  _test_target_type = \"test\"\n\x7d\n\n").toList

/-- `IOS_PRODUCT_METRICS` -/
def IOS_PRODUCT_METRICS : Text := "if (!is_cronet_build || is_ios) \x7b".toList

/-- What `write_test_filtered_directory` makes of the `BUILD.gn` of a directory. -/
def filteredBuild (source : Path) (filterTests : Bool) (build : Text) : Except Fault Text := do
  let build ←
    if !filterTests || ["third_party", "googletest"].isSuffixOf source then .ok build
    else removeTestonlyGnBlocks build
  let build ←
    if filterTests && ["base", "test"].isSuffixOf source then
      replaceUpstream UNUSED_TEST_TRACE_PROCESSOR_TYPE []
        "upstream base/test BUILD.gn changed around its trace processor target type" build
    else .ok build
  let build ←
    if ["build", "android"].isSuffixOf source then do
      let build ← removeNamedGnBlocks build "python_library".toList "resource_sizes_py".toList
      removeNamedGnBlocks build "group".toList "stack_tools".toList
    else .ok build
  let build ←
    if source.getLast? = some "net" then do
      let build ←
        if filterTests then
          replaceUpstream UNUSED_TEST_TYPE []
            "upstream net/BUILD.gn changed around its unit-test target type" build
        else .ok build
      let build ← removeNamedGnBlocks build "component".toList "extras".toList
      removeNamedGnBlocks build "component".toList "shared_dictionary_info".toList
    else .ok build
  let build ←
    if ["net", "third_party", "quiche"].isSuffixOf source then do
      let build ← removeNamedGnBlocks build "component".toList "blind_sign_auth".toList
      removeNamedGnBlocks build "proto_library".toList "blind_sign_auth_proto".toList
    else .ok build
  let build ←
    if ["components", "metrics"].isSuffixOf source then
      replaceUpstream IOS_PRODUCT_METRICS "if (!is_cronet_build) \x7b".toList
        "upstream metrics BUILD.gn changed around its iOS product graph" build
    else .ok build
  if ["third_party", "perfetto"].isSuffixOf source then do
    let build ← removeGnBlockWithHeader build
      "target(libtrace_processor_target_type, \"libtrace_processor\")".toList
    replaceUpstream UNUSED_TRACE_PROCESSOR_TYPE []
      "upstream Perfetto BUILD.gn changed around its trace processor target type" build
  else .ok build

/-! ## Files -/

variable (host : Host)

/-- `fs::read_to_string` -/
def readToString (t : Tree) (links : Nat) (path : Path) : Except IoError Text := do
  let bytes ← t.read links path
  let text := Utf8.decode bytes
  if Utf8.encode text = bytes then .ok text else .error .invalidData

/-- `fs::write` of a text. -/
def writeText (action : String) (path : Path) (text : Text) : Prog Fault Unit :=
  make host action (.write (Utf8.encode text)) path

/-- `write_if_changed` -/
def writeIfChanged (path : Path) (contents : List UInt8) (action : String) : Prog Fault Unit := do
  let current ← ask host (·.read · path)
  if current.toOption = some contents then pure () else make host action (.write contents) path

/-- `require_file` -/
def requireFile (path : Path) (help : String) : Prog Fault Unit := do
  if ← ask host (·.isFile · path) then pure ()
  else .fail (.err s!"{displayPath path} is missing; {help}")

/-! ## Parts of the overlay -/

/-- `write_test_filtered_directory`, when so many calls of it have room on the stack. -/
def writeTestFilteredDirectory : Nat → Path → Path → Bool → Prog Fault Unit
  | 0, _, _, _ => .fail .panic
  | depth + 1, source, overlay, filterTests => do
    replaceGeneratedLinkWithDirectory host overlay
    let names ← listDir host s!"list Chromium subtree {displayPath source}" source
    let testApart (t : Tree) (links : Nat) : Bool :=
      source.getLast? = some "base" && t.isDir links (source ++ ["test"])
    .forEach (fun name => do
      if ← ask host fun t links => name = "BUILD.gn" || testApart t links && name = "test" then
        pure ()
      else do
        if ← ask host (·.isDir · (source ++ [name])) then
          writeTestFilteredDirectory depth (source ++ [name]) (overlay ++ [name]) filterTests
        else ensureSymlink host (source ++ [name]) (overlay ++ [name])) names
    let apart ← ask host testApart
    .onlyIf apart
      (writeTestFilteredDirectory depth (source ++ ["test"]) (overlay ++ ["test"]) filterTests)
    let buildPath := source ++ ["BUILD.gn"]
    let isFile ← ask host (·.isFile · buildPath)
    .onlyIf isFile do
      let build ← query host "read upstream BUILD.gn" (readToString · · buildPath)
      let build ← .look fun _ => filteredBuild source filterTests build
      writeText host "write test-filtered BUILD.gn" (overlay ++ ["BUILD.gn"]) build

/-- `write_testing_overlay` -/
def writeTestingOverlay (source overlay : Path) : Prog Fault Unit := do
  let sourceTesting := source ++ ["testing"]
  let overlayTesting := overlay ++ ["testing"]
  replaceGeneratedLinkWithDirectory host overlayTesting
  let names ← listDir host "list Chromium testing directory" sourceTesting
  linkEntries host sourceTesting overlayTesting (· = "BUILD.gn") names
  let build ← query host "read upstream testing/BUILD.gn"
    (readToString · · (sourceTesting ++ ["BUILD.gn"]))
  let build ← .look fun _ => removeNamedGnBlocks build "group".toList "run_perf_test".toList
  writeText host "write Cronet-only testing/BUILD.gn" (overlayTesting ++ ["BUILD.gn"]) build

/-- `write_build_overlay` -/
def writeBuildOverlay (source overlay : Path) (filterTests : Bool) : Prog Fault Unit := do
  let sourceBuild := source ++ ["build"]
  let overlayBuild := overlay ++ ["build"]
  replaceGeneratedLinkWithDirectory host overlayBuild
  let names ← listDir host "list Chromium build directory" sourceBuild
  linkEntries host sourceBuild overlayBuild (· ∈ ["BUILD.gn", "android", "config"]) names
  let build ← query host "read upstream build/BUILD.gn"
    (readToString · · (sourceBuild ++ ["BUILD.gn"]))
  let build ← .look fun _ => removeNamedGnBlocks build "group".toList "gold_common_pytype".toList
  writeText host "write Cronet-only build/BUILD.gn" (overlayBuild ++ ["BUILD.gn"]) build
  ensureSymlink host (sourceBuild ++ ["config"]) (overlayBuild ++ ["config"])
  writeTestFilteredDirectory host host.stack (sourceBuild ++ ["android"])
    (overlayBuild ++ ["android"]) filterTests

/-- `write_buildtools_overlay` -/
def writeBuildtoolsOverlay (source overlay : Path) : Prog Fault Unit := do
  let sourceBuildtools := source ++ ["buildtools"]
  let overlayBuildtools := overlay ++ ["buildtools"]
  replaceGeneratedLinkWithDirectory host overlayBuildtools
  let names ← listDir host "list Chromium buildtools directory" sourceBuildtools
  linkEntries host sourceBuildtools overlayBuildtools (· = "third_party") names
  let sourceThirdParty := sourceBuildtools ++ ["third_party"]
  let overlayThirdParty := overlayBuildtools ++ ["third_party"]
  replaceGeneratedLinkWithDirectory host overlayThirdParty
  let names ← listDir host "list Chromium buildtools third_party directory" sourceThirdParty
  linkEntries host sourceThirdParty overlayThirdParty (· = "libc++") names
  let sourceLibcxx := sourceThirdParty ++ ["libc++"]
  let overlayLibcxx := overlayThirdParty ++ ["libc++"]
  replaceGeneratedLinkWithDirectory host overlayLibcxx
  let names ← listDir host "list Chromium libc++ build files" sourceLibcxx
  linkEntries host sourceLibcxx overlayLibcxx (fun _ => false) names

/-- `native_extensions::apply` -/
def applyNativeExtensions (overlay : Path) : Prog Fault Unit := do
  let sys := host.workspace ++ ["crates", "tokio-cronet-sys"]
  let dest := overlay ++ ["components", "cronet_rs"]
  replaceGeneratedLinkWithDirectory host dest
  ensureSymlink host (sys ++ ["cronet_rs_c.h"]) (dest ++ ["cronet_rs_c.h"])
  linkEntries host (sys ++ ["native"]) dest (fun _ => false)
    ["cronet_rs_bind.cc", "cronet_rs_websocket.cc", "BUILD.gn", "cronet_rs_android_jni_onload.cc",
      "cronet_rs_android_static_support.cc", "cronet_rs_ohos.cc"]

/-- `write_cronet_component_overlay` -/
def writeCronetComponentOverlay (source overlay : Path) (filterTests : Bool) :
    Prog Fault Unit := do
  let sourceComponents := source ++ ["components"]
  let overlayComponents := overlay ++ ["components"]
  replaceGeneratedLinkWithDirectory host overlayComponents
  let names ← listDir host "list Chromium components" sourceComponents
  .forEach (fun name =>
    if name = "cronet" then pure ()
    else do
      if ← ask host (·.isDir · (sourceComponents ++ [name])) then
        writeTestFilteredDirectory host host.stack (sourceComponents ++ [name])
          (overlayComponents ++ [name]) filterTests
      else ensureSymlink host (sourceComponents ++ [name]) (overlayComponents ++ [name])) names
  let sourceCronet := sourceComponents ++ ["cronet"]
  let overlayCronet := overlayComponents ++ ["cronet"]
  replaceGeneratedLinkWithDirectory host overlayCronet
  let names ← listDir host "list Chromium Cronet directory" sourceCronet
  linkEntries host sourceCronet overlayCronet (· ∈ ["BUILD.gn", "native"]) names
  let sourceNative := sourceCronet ++ ["native"]
  let overlayNative := overlayCronet ++ ["native"]
  replaceGeneratedLinkWithDirectory host overlayNative
  let names ← listDir host "list Chromium Cronet native directory" sourceNative
  linkEntries host sourceNative overlayNative (· = "BUILD.gn") names
  applyNativeExtensions host overlay

/-- The directories of `third_party` whose tests an Android build keeps. -/
def androidJavaGraph : List Name :=
  ["android_build_tools", "android_deps", "androidx", "aosp_dalvik", "byte_buddy", "google-truth",
    "hamcrest", "icu4j", "junit", "mockito", "sqlite4java"]

/-- `write_third_party_overlay` -/
def writeThirdPartyOverlay (source overlay : Path) (filterTests : Bool) : Prog Fault Unit := do
  let sourceThirdParty := source ++ ["third_party"]
  let overlayThirdParty := overlay ++ ["third_party"]
  replaceGeneratedLinkWithDirectory host overlayThirdParty
  let names ← listDir host "list Chromium third_party directory" sourceThirdParty
  .forEach (fun name => do
    let destination := overlayThirdParty ++ [name]
    if name = "BUILD.gn" then pure ()
    else do
      let materialized ← ask host (·.isDir · destination)
      if name = "rust" ∧ materialized then pure ()
      else do
        if ← ask host (·.isFile · (sourceThirdParty ++ [name, "BUILD.gn"])) then
          let preserveAndroidJavaGraph := !filterTests && name ∈ androidJavaGraph
          writeTestFilteredDirectory host host.stack (sourceThirdParty ++ [name]) destination
            !preserveAndroidJavaGraph
        else ensureSymlink host (sourceThirdParty ++ [name]) destination) names
  let rootBuild := sourceThirdParty ++ ["BUILD.gn"]
  let isFile ← ask host (·.isFile · rootBuild)
  .onlyIf isFile do
    let build ← query host "read upstream third_party/BUILD.gn" (readToString · · rootBuild)
    let build ← .look fun _ => removeTestonlyGnBlocks build
    writeText host "write test-filtered third_party/BUILD.gn" (overlayThirdParty ++ ["BUILD.gn"])
      build

/-- The rounds of `write_cxx_libcxx_compat_overlay`. -/
def cxxLibcxxRounds (source overlay : Path) : List Name → Prog Fault Unit
  | [] => pure ()
  | component :: rest => do
    let source := source ++ [component]
    let overlay := overlay ++ [component]
    replaceGeneratedLinkWithDirectory host overlay
    let excluded := rest.head?.getD "cxx.h"
    let names ← listDir host "list the cxx compatibility overlay directory" source
    linkEntries host source overlay (· = excluded) names
    cxxLibcxxRounds source overlay rest

/-- `write_cxx_libcxx_compat_overlay` -/
def writeCxxLibcxxCompatOverlay (source overlay : Path) : Prog Fault Unit :=
  cxxLibcxxRounds host (source ++ ["third_party"]) (overlay ++ ["third_party"])
    ["rust", "chromium_crates_io", "vendor", "cxx-v1", "include"]

/-! ## Platforms -/

/-- `PlatformKind` -/
inductive PlatformKind where
  | host
  | linux
  | android
  | ios
  | macOs
  | ohos
  | windows
  deriving DecidableEq

/-- A `PlatformBuild`; the host has no target triple. -/
structure PlatformBuild where
  kind : PlatformKind
  target : Option String

/-- `PlatformBuild::cache_key` -/
def PlatformBuild.cacheKey (platform : PlatformBuild) : Text :=
  "v2:".toList ++ (platform.target.getD "host").toList

/-- `PlatformBuild::filter_third_party_tests` -/
def PlatformBuild.filterThirdPartyTests (platform : PlatformBuild) : Bool :=
  platform.kind ≠ .android

/-- The last of the names, as paths in one directory are sorted. -/
def latest (names : List Name) : Option Name := (names.mergeSort fun a b => a ≤ b).getLast?

/-- The beginning of the two tests of `link_android_host_tools`: a place that does not hold the
expected link is cleared. -/
def clearUnlessLinked (target link : Path) (blocked : Prog Fault Unit)
    (what : String) : Prog Fault Unit := do
  match ← ask host (·.symlinkMetadata · link) with
  | .ok (.link existing) =>
    if existing = .toPath target then pure ()
    else make host s!"replace {what} link" .removeFile link
  | .ok (.file _) => blocked
  | .ok .dir => make host s!"replace {what} directory" .removeDirAll link
  | .error _ => pure ()

/-- `link_android_host_tools` -/
def linkAndroidHostTools (source overlay : Path) : Prog Fault Unit := do
  if !host.macos then pure ()
  else
    match host.androidSdkRoot <|> host.androidHome <|>
      host.home.map (· ++ ["Library", "Android", "sdk"]) with
    | none =>
      .fail (.err "Android SDK not configured; set ANDROID_SDK_ROOT or ANDROID_HOME")
    | some sdkRoot => do
      let localRoot := sdkRoot ++ ["build-tools"]
      let names ← listDir host "list Android SDK build tools" localRoot
      let complete ← ask host fun t links => names.filter fun name =>
        t.isFile links (localRoot ++ [name, "aidl"]) &&
          t.isFile links (localRoot ++ [name, "aapt2"])
      match latest complete with
      | none =>
        .fail (.err ("no complete Android SDK build-tools installation found in " ++
          displayPath localRoot))
      | some version => do
        let pinnedRoot := source ++ ["third_party", "android_sdk", "public", "build-tools"]
        let names ← listDir host "list pinned Android SDK build tools" pinnedRoot
        let directories ← ask host fun t links => names.filter fun name =>
          t.isDir links (pinnedRoot ++ [name])
        match latest directories with
        | none =>
          .fail (.err s!"no pinned Android SDK build tools found in {displayPath pinnedRoot}")
        | some pinned => do
          let tools := localRoot ++ [version]
          let destination :=
            overlay ++ ["third_party", "android_sdk", "public", "build-tools", pinned]
          clearUnlessLinked host tools destination
            (make host "replace Android host build-tools link" .removeFile destination)
            "Android host build-tools"
          ensureSymlink host tools destination
          let javaHome := source ++ ["third_party", "jdk", "current", "Contents", "Home"]
          requireFile host (javaHome ++ ["bin", "javap"])
            "synchronize the pinned macOS Android build JDK"
          let current := overlay ++ ["third_party", "jdk", "current"]
          clearUnlessLinked host javaHome current
            (.fail (.err s!"{displayPath current} blocks the generated host JDK link"))
            "the generated host JDK"
          ensureSymlink host javaHome current
          install host source overlay ANDROID_MAC_HOST

/-- `PlatformBuild::prepare_overlay` -/
def prepareOverlay (platform : PlatformBuild) (source overlay : Path) : Prog Fault Unit :=
  match platform.kind with
  | .android => do
    install host source overlay ANDROID
    installSourceWrappers host source overlay ANDROID_SOURCE_WRAPPERS
    linkAndroidHostTools host source overlay
  | .ios => installSourceWrappers host source overlay IOS
  | .ohos => do
    install host source overlay OHOS
    installSourceWrappers host source overlay OHOS_SOURCE_WRAPPERS
  | .host | .linux | .macOs | .windows => pure ()

/-! ## The overlay -/

/-- Where the overlay of a source tree is. -/
def overlayOf (source : Path) : Path := source.dropLast ++ ["cronet-gn-root"]

/-- The entries of the source tree that get no plain link at the top of the overlay. -/
def ownEntries : List Name :=
  [".git", ".gn", "BUILD.gn", "DEPS.cronet", "base", "build", "buildtools", "components", "crypto",
    "net", "out", "testing", "third_party", "url"]

/-- `write_cronet_overlay`, from the canonical source directory on. -/
def writeCanonicalOverlay (source : Path) (platform : PlatformBuild) : Prog Fault Path := do
  let overlay := overlayOf source
  let platformMarker := overlay ++ [".cronet-rs-platform"]
  let platformKey := platform.cacheKey
  let outdated ← ask host fun t links => t.exist links overlay &&
    match readToString t links platformMarker with
    | .ok current => trim current ≠ platformKey
    | .error _ => false
  .onlyIf outdated (make host "replace Cronet GN overlay" .removeDirAll overlay)
  makeDirAll host "create Cronet GN overlay" overlay
  writeIfChanged host platformMarker (Utf8.encode (platformKey ++ ['\n']))
    "write the Cronet overlay platform marker"
  ensureSymlink host (source ++ [".gn"]) (overlay ++ [".gn"])
  let names ← listDir host "list Chromium source directory" source
  linkEntries host source overlay (· ∈ ownEntries) names
  let sourceOut := source ++ ["out"]
  makeDirAll host "create Chromium output directory" sourceOut
  ensureSymlink host sourceOut (overlay ++ ["out"])
  let filterTests := true
  writeBuildOverlay host source overlay filterTests
  writeBuildtoolsOverlay host source overlay
  .forEach (fun directory => writeTestFilteredDirectory host host.stack (source ++ [directory])
    (overlay ++ [directory]) filterTests) ["base", "crypto", "net", "url"]
  writeCronetComponentOverlay host source overlay filterTests
  writeTestingOverlay host source overlay
  writeThirdPartyOverlay host source overlay platform.filterThirdPartyTests
  writeCxxLibcxxCompatOverlay host source overlay
  install host source overlay COMMON
  prepareOverlay host platform source overlay
  pure overlay

/-- `write_cronet_overlay` -/
def writeCronetOverlay (source : Path) (platform : PlatformBuild) : Prog Fault Path := do
  let source ← query host "resolve Chromium source directory" (·.canonicalize · source)
  if source = [] then .fail .panic else writeCanonicalOverlay host source platform

end TokioCronet.Overlay
