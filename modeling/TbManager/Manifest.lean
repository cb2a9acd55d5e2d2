import TbManager.DataFile
import TbManager.HashIteration

/-!
# The manifest log

The manifest log is a linked list of blocks, newest first; each block holds
insert, update and remove events of tables. Both walks of the log remember, for
each table address, the first event they see.
-/

namespace TbManager

inductive ManifestEvent where
  | insert
  | update
  | remove
  deriving DecidableEq, Repr

structure TableInfo where
  address : U64
  treeId : U16
  event : ManifestEvent
  deriving DecidableEq, Repr

namespace TableInfo

/-- The event in bits 7 and 6 of a label, none for the reserved value. -/
def eventOfLabel (label : U8) : Option ManifestEvent :=
  match ((label >>> 6) &&& 3#8).toNat with
  | 1 => some .insert
  | 2 => some .update
  | 3 => some .remove
  | _ => none

def fromBytes (b : List U8) : Option TableInfo :=
  (eventOfLabel ((readU8 b 126).getD 0)).map fun event =>
    { address := leAt 8 b 96
      treeId := leAt 2 b 124
      event := event }

def live (entry : TableInfo) : Bool := entry.event = .insert || entry.event = .update

end TableInfo

namespace Manifest

def accountObjectsTreeId : U16 := 7

def transferObjectsTreeId : U16 := 18

def tableInfoSize : ℕ := 128

def entrySlices (block : List U8) (entryCount : ℕ) : Option (List (List U8)) :=
  (List.range entryCount).mapM fun i => slice block (headerSize + i * tableInfoSize) tableInfoSize

/-- The previous address and the entries of a manifest block; reserved events are
skipped. -/
def parseBlock (address : U64) (block : List U8) : Outcome ReaderError (U64 × List TableInfo) := do
  let header ← BlockHeader.parse block
  if header.blockType ≠ BlockHeader.manifest then
    .err (.invalidBlock ("expected manifest block at address " ++ toString address.toNat ++
      ", got block_type=" ++ toString header.blockType.toNat))
  else do
    let previous ← .ofOption (readU64 block 160)
    let entryCount ← .ofOption (readU32 block 168)
    let maxEntries := (block.length - headerSize) / tableInfoSize
    if maxEntries < entryCount.toNat then
      .err (.invalidBlock ("manifest block at " ++ toString address.toNat ++
        ": entry_count=" ++ toString entryCount.toNat ++
        " exceeds block capacity " ++ toString maxEntries))
    else do
      let slices ← .ofOption (entrySlices block entryCount.toNat)
      .ok (previous, slices.filterMap TableInfo.fromBytes)

def readBlock (prof : Profile) (config : TBConfig) (file : DataFile) (address : U64) :
    Outcome ReaderError (U64 × List TableInfo) := do
  let offset ← .ofOption (config.blockOffset prof address)
  .ofExcept ((file.seek offset).mapError .io)
  let block ← .ofExcept ((file.readExact offset config.blockSize.toNat).mapError .io)
  parseBlock address block

/-- The loop over the chain; `visit` records the entries of one block. -/
def walk (prof : Profile) (config : TBConfig) (file : DataFile) (blockCount : U32)
    (visit : HashMap U64 Bool → List TableInfo → HashMap U64 Bool) :
    ℕ → U64 → U32 → HashMap U64 Bool → Outcome ReaderError (HashMap U64 Bool)
  | 0, _, _, _ => .running
  | fuel + 1, address, visited, seen =>
    if address = 0 then .ok seen
    else do
      let visited ← .ofOption (prof.add visited 1)
      let bound ← .ofOption (prof.add blockCount 1)
      if bound < visited then
        .err (.invalidBlock ("manifest chain longer than manifest_block_count=" ++
          toString blockCount.toNat ++ " (possible loop)"))
      else do
        let block ← readBlock prof config file address
        walk prof config file blockCount visit fuel block.1 visited (visit seen block.2)

def walkLog (prof : Profile) (config : TBConfig) (file : DataFile) (info : SuperblockInfo)
    (visit : HashMap U64 Bool → List TableInfo → HashMap U64 Bool) (fuel : ℕ) :
    Outcome ReaderError (HashMap U64 Bool) :=
  if info.manifestNewestAddress = 0 ∨ info.manifestBlockCount = 0 then .ok ∅
  else do
    allocate config.blockSize
    walk prof config file info.manifestBlockCount visit fuel info.manifestNewestAddress 0 ∅

def visitTree (treeId : U16) (seen : HashMap U64 Bool) (es : List TableInfo) : HashMap U64 Bool :=
  HashMap.orInsertAll TableInfo.address TableInfo.live seen (es.filter fun e => e.treeId = treeId)

/-- Records the first event of each address, of all trees. -/
def visitAll (seen : HashMap U64 Bool) (es : List TableInfo) : HashMap U64 Bool :=
  HashMap.orInsertAll TableInfo.address TableInfo.live seen es

def liveAddresses (ord : IterOrder U64 Bool) (seen : HashMap U64 Bool) : List U64 :=
  (HashMap.iter seen ord).filterMap fun e => if e.2 then some e.1 else none

def collectIndexBlocksForTree (prof : Profile) (ord : IterOrder U64 Bool) (config : TBConfig)
    (file : DataFile) (info : SuperblockInfo) (treeId : U16) (fuel : ℕ) :
    Outcome ReaderError (List U64) := do
  let seen ← walkLog prof config file info (visitTree treeId) fuel
  .ok (liveAddresses ord seen)

def collectAccountIndexBlocks (prof : Profile) (ord : IterOrder U64 Bool) (config : TBConfig)
    (file : DataFile) (info : SuperblockInfo) (fuel : ℕ) : Outcome ReaderError (List U64) :=
  collectIndexBlocksForTree prof ord config file info accountObjectsTreeId fuel

def collectTransferIndexBlocks (prof : Profile) (ord : IterOrder U64 Bool) (config : TBConfig)
    (file : DataFile) (info : SuperblockInfo) (fuel : ℕ) : Outcome ReaderError (List U64) :=
  collectIndexBlocksForTree prof ord config file info transferObjectsTreeId fuel

def countLiveIndexBlocks (prof : Profile) (config : TBConfig) (file : DataFile)
    (info : SuperblockInfo) (fuel : ℕ) : Outcome ReaderError ℕ := do
  let seen ← walkLog prof config file info visitAll fuel
  .ok (seen.entries.countP Sigma.snd)

end Manifest

end TbManager
