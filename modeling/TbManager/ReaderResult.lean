import TbManager.MachineInt

/-!
# Results of the data-file reader

The errors of the reader with their messages, and the collection of a stream of
results.
-/

namespace TbManager

inductive ReaderError where
  | io (message : String)
  | invalidSuperblock (message : String)
  | invalidBlock (message : String)
  | notCheckpointed (sequence : U64)
  deriving DecidableEq, Repr

namespace ReaderError

def message : ReaderError → String
  | io m => "I/O error: " ++ m
  | invalidSuperblock m => "invalid superblock: " ++ m
  | invalidBlock m => "invalid block: " ++ m
  | notCheckpointed sequence =>
      "no checkpoint yet (superblock sequence=" ++ toString sequence.toNat ++
        "): the cluster has started but has not committed enough operations to trigger " ++
        "its first LSM checkpoint (~960 ops for production config); " ++
        "query the live cluster via the TigerBeetle client instead"

end ReaderError

/-- `collect::<Result<Vec<_>, _>>()`: all values, or the first error. -/
def collectResults {ε α : Type*} : List (Except ε α) → Except ε (List α)
  | [] => .ok []
  | .ok a :: rest => (collectResults rest).map (a :: ·)
  | .error e :: _ => .error e

theorem collectResults_ok {ε α : Type*} (as : List α) :
    collectResults (as.map (Except.ok : α → Except ε α)) = .ok as := by
  induction as with
  | nil => rfl
  | cons a as ih => rw [List.map_cons, collectResults, ih, Except.map]

end TbManager
