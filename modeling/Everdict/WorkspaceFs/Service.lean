import Everdict.WorkspaceFile.Diff
import Everdict.WorkspaceFs.MemberAreas

/-!
# The service on the filesystem

`FsService` as one caller sees it: contents shaped for an answer, search as a walk with a budget,
the history of a file, and the kit that a lost race answers with.  `forMember` puts the scoped port
under the service and gives it the viewer for what reads the ledger.
-/

namespace Everdict.WorkspaceFs

open Text Everdict.WorkspaceFs.Action WorkspaceFile

/-! ## Encodings -/

/-- `new TextDecoder("utf-8", { fatal: true }).decode(data)` -/
def decodeUtf8 (data : Bytes) : Option String :=
  -- the decoder drops a byte order mark
  let data := if data.take 3 = [0xEF, 0xBB, 0xBF] then data.drop 3 else data
  String.fromUTF8? ⟨data.toArray⟩

/-- `new TextEncoder().encode(content)` -/
def encodeUtf8 (content : String) : Bytes := content.toUTF8.data.toList

def base64Alphabet : List Char :=
  "ABCDEFGHIJKLMNOPQRSTUVWXYZabcdefghijklmnopqrstuvwxyz0123456789+/".toList

def base64Char (n : Nat) : Char := base64Alphabet.getD n 'A'

/-- `Buffer.from(data).toString("base64")` -/
def encodeBase64 : List Nat → List Char
  | [] => []
  | [a] => [base64Char (a / 4), base64Char (a % 4 * 16), '=', '=']
  | [a, b] => [base64Char (a / 4), base64Char (a % 4 * 16 + b / 16), base64Char (b % 16 * 4), '=']
  | a :: b :: c :: rest =>
      base64Char (a / 4) :: base64Char (a % 4 * 16 + b / 16) :: base64Char (b % 16 * 4 + c / 64)
        :: base64Char (c % 64) :: encodeBase64 rest

/-- The bytes of sextets. -/
def joinSextets : List Nat → List Nat
  | a :: b :: c :: d :: rest =>
      (a * 4 + b / 16) :: (b % 16 * 16 + c / 4) :: (c % 4 * 64 + d) :: joinSextets rest
  | [a, b, c] => [a * 4 + b / 16, b % 16 * 16 + c / 4]
  | [a, b] => [a * 4 + b / 16]
  | _ => []

def decodeBase64 (path content : String) : Except AppError Bytes :=
  let compact := content.toList.filter fun c => !isSpace c
  let body := compact.takeWhile (· ∈ base64Alphabet)
  let padding := compact.dropWhile (· ∈ base64Alphabet)
  if padding ∉ [[], ['='], ['=', '=']] ∨ compact.length % 4 ≠ 0 then
    .error (BadRequestError [("path", path)] "content is not valid base64")
  else .ok ((joinSextets (body.map fun c => base64Alphabet.idxOf c)).map UInt8.ofNat)

/-! ## Contents -/

inductive Encoding
  | utf8
  | base64
  deriving DecidableEq

structure FsFileContent where
  entry : FsEntry
  content : String
  encoding : Encoding
  deriving DecidableEq

def FS_TEXT_APPLICATION_TYPES : List String :=
  ["application/javascript", "application/json", "application/json5", "application/jsonl",
    "application/toml", "application/typescript", "application/x-httpd-php", "application/x-sh",
    "application/xml", "application/yaml"]

def baseContentType (contentType : String) : String :=
  (trim (String.ofList (contentType.toList.takeWhile (· ≠ ';')))).toLower

def isFsTextContentType (contentType : String) : Bool :=
  let base := baseContentType contentType
  startsWith base "text/" || "+json".toList.isSuffixOf base.toList
    || "+xml".toList.isSuffixOf base.toList || "+yaml".toList.isSuffixOf base.toList
    || FS_TEXT_APPLICATION_TYPES.contains base

def FS_FALLBACK_CONTENT_TYPE : String := "application/octet-stream"
def FS_SNIFFED_TEXT_TYPE : String := "text/plain; charset=utf-8"

def sniffText (data : Bytes) : Option String :=
  (decodeUtf8 data).filter fun text => !text.contains '\x00'

def resolveEntry (entry : FsEntry) (stored : Option String) (contentType : String) : FsEntry :=
  if stored = some contentType then entry else { entry with contentType := some contentType }

def shapeContent (registry : Registry) (entry : FsEntry) (data : Bytes) : FsFileContent :=
  let stored := entry.contentType
  let contentType :=
    if stored.all (· = FS_FALLBACK_CONTENT_TYPE) then registry.guessFsContentType entry.path
    else stored.getD FS_FALLBACK_CONTENT_TYPE
  let asBase64 : FsFileContent :=
    ⟨resolveEntry entry stored contentType, String.ofList (encodeBase64 (data.map UInt8.toNat)),
      .base64⟩
  if isFsTextContentType contentType then
    match sniffText data with
    | some text => ⟨resolveEntry entry stored contentType, text, .utf8⟩
    | none => asBase64
  else if contentType = FS_FALLBACK_CONTENT_TYPE then
    match sniffText data with
    | some text => ⟨resolveEntry entry stored FS_SNIFFED_TEXT_TYPE, text, .utf8⟩
    | none => asBase64
  else asBase64

/-! ## Requests and answers -/

structure WriteFsFileInput where
  path : String
  content : String
  encoding : Option Encoding
  contentType : Option String
  baseRevision : Option Nat
  message : Option String
  deriving DecidableEq

structure FsSearchInput where
  pattern : Option String
  glob : Option String
  path : Option String
  limit : Option Nat
  deriving DecidableEq

structure FsSearchMatch where
  path : String
  line : Option Nat
  excerpt : Option String
  deriving DecidableEq

structure FsSearchResult where
  found : List FsSearchMatch
  scanned : Nat
  truncated : Bool
  deriving DecidableEq

structure FsRevisionDiff where
  path : String
  from' : Nat
  to' : Nat
  diff : FsTextDiff
  deriving DecidableEq

structure ConflictHead where
  content : String
  encoding : Encoding
  revision : Nat
  deriving DecidableEq

structure FsWriteConflict where
  path : String
  baseRevision : Nat
  headRevision : Nat
  head : Option ConflictHead
  merge : Option FsMergeResult
  deriving DecidableEq

/-- A write is published, or refused with a `CONFLICT` whose data is the kit. -/
inductive Written
  | published (entry : FsEntry)
  | conflict (kit : FsWriteConflict) (message : String)
  deriving DecidableEq

def SEARCH_WALK_CAP : Nat := 5000
def SEARCH_READ_CAP : Nat := 500
def SEARCH_MAX_FILE_BYTES : Nat := 262144
def SEARCH_MATCHES_PER_FILE : Nat := 5
def SEARCH_DEFAULT_LIMIT : Nat := 50
def SEARCH_MAX_LIMIT : Nat := 200
def SEARCH_EXCERPT_CHARS : Nat := 200

/-- What the service takes from elsewhere, with `new RegExp(source, flags)`: what it tests, or the
message of a `SyntaxError`. -/
structure ServiceDeps extends Deps where
  regExp : String → String → Except String (String → Bool)

/-! ## Globs -/

/-- The characters that a glob takes literally and a regular expression does not. -/
def escapeChar (c : Char) : List Char :=
  if c ∈ ".+^$\x7b\x7d()|[]\\".toList then ['\\', c] else [c]

/-- The loop of `globToRegExp`. -/
def globSource : List Char → List Char
  | '*' :: '*' :: '/' :: rest => "(?:[^/]+/)*".toList ++ globSource rest
  | '*' :: '*' :: rest => ".*".toList ++ globSource rest
  | '*' :: rest => "[^/]*".toList ++ globSource rest
  | '?' :: rest => "[^/]".toList ++ globSource rest
  | c :: rest => escapeChar c ++ globSource rest
  | [] => []

def globToRegExp (deps : ServiceDeps) (glob : String) : Except String (String → Bool) :=
  let normalized := glob.toList.dropWhile (· = '/')
  deps.regExp ("^" ++ String.ofList (globSource normalized) ++ "$") ""

/-! ## The service -/

/-- The port, the listing of the ledger when there is one, and who is looking. -/
structure FsService where
  fs : WorkspaceFs
  revisions : Option (String → Option Nat → Option Nat → Action Rows)
  viewer : Option String

structure SearchState where
  found : List FsSearchMatch
  scanned : Nat
  truncated : Bool
  walkLeft : Nat
  readLeft : Nat

namespace FsService

variable (deps : ServiceDeps) (service : FsService)

def forMember (slug : Option String) : FsService :=
  { service with fs := memberScoped service.fs slug, viewer := slug }

def requireVisible (path : String) : Action Unit :=
  if mine service.viewer path then pure () else throw (doesNotExist path)

def list (path : Option String) : Action (List FsEntry) := service.fs.list (path.getD "")

def stat (path : String) : Action (Option FsEntry) := service.fs.stat path

def readFile (path : String) : Action FsFileContent := do
  match ← service.fs.read path with
  | some file => return shapeContent deps.toRegistry file.entry file.data
  | none => throw (doesNotExist path)

/-- The three texts are there, and what they merge to. -/
def mergeKit (input : WriteFsFileInput) (live : FsFileContent) (kit : FsWriteConflict) :
    Action FsWriteConflict :=
  if input.encoding = some .base64 ∨ live.encoding ≠ .utf8 ∨ kit.baseRevision = 0 then pure kit
  else do
    match ← service.fs.readRevisionBlob input.path kit.baseRevision with
    | none => return kit
    | some ancestor =>
        match decodeUtf8 ancestor.data with
        | none => return kit
        | some text => return { kit with merge := some (mergeThreeWay text input.content
            live.content) }

def resolutionKit (input : WriteFsFileInput) : Action FsWriteConflict := do
  let head ← service.fs.stat input.path
  let kit : FsWriteConflict :=
    { path := input.path
      baseRevision := input.baseRevision.getD 0
      headRevision := (head.bind FsEntry.revision).getD 0
      head := none
      merge := none }
  let live : Option FsFileContent ←
    tryCatch (service.readFile deps input.path >>= fun live => pure (some live)) fun _ => pure none
  match live with
  | none => return kit
  | some live =>
      match live.entry.revision with
      | none => return kit
      | some revision =>
          mergeKit service input live
            { kit with head := some ⟨live.content, live.encoding, revision⟩ }

/-- What a write that failed answers. -/
def refuse (input : WriteFsFileInput) (e : AppError) : Action Written :=
  if e.code ≠ .CONFLICT ∨ input.baseRevision = none then throw e
  else do
    let kit ← service.resolutionKit deps input
    return .conflict kit (e.message ++ ". Merge the published revision, then publish again.")

def writeFile (input : WriteFsFileInput) (actor : Option String) : Action Written := do
  let data ← checks (if input.encoding = some .base64 then decodeBase64 input.path input.content
    else .ok (encodeUtf8 input.content))
  tryCatch
    (service.fs.write input.path
        ⟨data, input.contentType, ⟨actor, input.baseRevision, input.message, none⟩⟩
      >>= fun entry => pure (.published entry))
    (service.refuse deps input)

def history (path : String) (limit before : Option Nat) : Action Rows := do
  service.requireVisible path
  match service.revisions with
  | none => return []
  | some revisions => revisions path limit before

def noRevision (path : String) (revision : Nat) : AppError :=
  NotFoundError [("path", path), ("revision", toString revision)]
    ("'" ++ path ++ "' has no revision " ++ toString revision)

def readRevision (path : String) (revision : Nat) : Action FsFileContent := do
  service.requireVisible path
  match ← service.fs.readRevisionBlob path revision with
  | none => throw (noRevision path revision)
  | some blob => return shapeContent deps.toRegistry blob.entry blob.data

def diffRevisions (path : String) (from' : Nat) (to' : Option Nat) : Action FsRevisionDiff := do
  service.requireVisible path
  let before ← service.readRevision deps path from'
  let after ← match to' with
    | some to' => service.readRevision deps path to'
    | none => service.readFile deps path
  let toRevision := (after.entry.revision.or to').getD 0
  if before.encoding ≠ .utf8 ∨ after.encoding ≠ .utf8 then
    return ⟨path, from', toRevision, ⟨[], 0, 0, true⟩⟩
  else return ⟨path, from', toRevision, diffFileText before.content after.content⟩

def restoreRevision (path : String) (revision : Nat) (actor : Option String) : Action FsEntry := do
  match ← service.fs.readRevisionBlob path revision with
  | none => throw (noRevision path revision)
  | some blob => service.fs.write path ⟨blob.data, blob.entry.contentType,
      ⟨actor, none, some ("Restored revision " ++ toString revision), some revision⟩⟩

def makeDirectory (path : String) : Action FsEntry := service.fs.mkdir path

def remove (path : String) (recursive : Bool) : Action Nat := do
  let removed ← service.fs.remove path recursive
  if removed = 0 then throw (doesNotExist path) else return removed

def move (from' to' : String) : Action FsEntry := service.fs.move from' to'

/-! ### Search -/

/-- The loop over the lines of a file: the lines left with the first one's number, and the matches
of this file so far. -/
def grep (path : String) (test : String → Bool) (limit : Nat) :
    List String → Nat → Nat → List FsSearchMatch → List FsSearchMatch
  | [], _, _, found => found
  | line :: lines, number, perFile, found =>
      if ¬ test line then grep path test limit lines (number + 1) perFile found
      else
        let found := found ++ [⟨path, some number, some (sliceTo (trim line) SEARCH_EXCERPT_CHARS)⟩]
        if SEARCH_MATCHES_PER_FILE ≤ perFile + 1 ∨ limit ≤ found.length then found
        else grep path test limit lines (number + 1) (perFile + 1) found

/-- What a search asks of a file. -/
structure SearchTests where
  glob : Option (String → Bool)
  pattern : Option (String → Bool)
  limit : Nat

/-- The body of the walk for a file: the state it leaves, and whether the directory goes on. -/
def searchFile (tests : SearchTests) (entry : FsEntry) (state : SearchState) :
    Action (SearchState × Bool) :=
  if tests.glob.any fun test => ¬ test entry.path then pure (state, true)
  else
    let state := { state with scanned := state.scanned + 1 }
    match tests.pattern with
    | none => pure ({ state with found := state.found ++ [⟨entry.path, none, none⟩] }, true)
    | some test =>
        if SEARCH_MAX_FILE_BYTES < entry.size.getD 0 then pure (state, true)
        else if state.readLeft = 0 then pure ({ state with truncated := true }, false)
        else do
          let state := { state with readLeft := state.readLeft - 1 }
          match ← service.fs.read entry.path with
          | none => return (state, true)
          | some file =>
              match sniffText file.data with
              | none => return (state, true)
              | some text =>
                  let found := grep entry.path test tests.limit (toLines text) 1 0 state.found
                  return ({ state with found }, true)

/-- The loop over the entries of a directory; `descend` walks one of them that is a directory. -/
def searchEntries (tests : SearchTests) (descend : String → SearchState → Action SearchState) :
    List FsEntry → SearchState → Action SearchState
  | [], state => pure state
  | entry :: entries, state =>
      if tests.limit ≤ state.found.length ∨ state.walkLeft = 0 then
        pure { state with truncated := true }
      else do
        let state := { state with walkLeft := state.walkLeft - 1 }
        if entry.kind = .dir then
          let state ← descend entry.path state
          searchEntries tests descend entries state
        else
          let (state, more) ← service.searchFile tests entry state
          if more then searchEntries tests descend entries state else pure state

/-- A level of the walk spends one of `walkLeft` before it descends, so a depth of
`SEARCH_WALK_CAP` is never used up. -/
def searchWalk (tests : SearchTests) : Nat → String → SearchState → Action SearchState
  | 0, _, state => pure state
  | depth + 1, dir, state =>
      if tests.limit ≤ state.found.length then pure state
      else do
        let entries ← service.fs.list dir
        service.searchEntries tests (searchWalk tests depth) entries state

/-- An empty text narrows nothing. -/
def given (text : Option String) : Option String := text.filter (· ≠ "")

def searchTests (input : FsSearchInput) : Except AppError SearchTests :=
  if given input.pattern = none ∧ given input.glob = none then
    .error (BadRequestError [] "search needs a `pattern` (content regex) and/or a `glob` (path)")
  else do
    let pattern ← match given input.pattern with
      | none => .ok none
      | some source => match deps.regExp source "i" with
          | .ok test => .ok (some test)
          | .error message => .error (BadRequestError [("pattern", source)]
              ("invalid search pattern: " ++ message))
    let glob ← match given input.glob with
      | none => .ok none
      | some glob => match globToRegExp deps glob with
          | .ok test => .ok (some test)
          | .error message => .error ⟨.driver, [], message⟩
    .ok ⟨glob, pattern, min (input.limit.getD SEARCH_DEFAULT_LIMIT) SEARCH_MAX_LIMIT⟩

def search (input : FsSearchInput) : Action FsSearchResult := do
  let tests ← checks (searchTests deps input)
  let state ← service.searchWalk tests (SEARCH_WALK_CAP + 1) (input.path.getD "")
    ⟨[], 0, false, SEARCH_WALK_CAP, SEARCH_READ_CAP⟩
  return ⟨state.found, state.scanned, state.truncated⟩

end FsService

end Everdict.WorkspaceFs
