import LibraryModels.Execution
import LibraryModels.Proofs.Text.Utf8

/-!
# Lines of a process

Whatever lines a process writes to its error output, each with a line feed after it, are read back
as they were: a text does not hold the byte of a line feed unless it holds the character.
-/

namespace LibraryModels

namespace Text

/-- The byte of a character below 128 is in no other character. -/
theorem eq_of_ofNat_mem_utf8EncodeChar
    {c d : Char}
    (hsmall : c.toNat < 128) (hb : UInt8.ofNat c.toNat ∈ String.utf8EncodeChar d) :
    d = c := by
  have hnumber := List.mem_map_of_mem (f := UInt8.toNat) hb
  have hvalue : d.toNat = d.val.toNat := rfl
  rw [← Char.toNat_inj, hvalue]
  rw [String.utf8EncodeChar] at hnumber
  generalize d.val.toNat = v at hnumber
  -- one case for each length of a character, and only the first has a byte below 128
  repeat' split at hnumber
  all_goals
    simp only [List.map_cons, List.map_nil, UInt8.toNat_ofNat', List.mem_cons, List.not_mem_nil,
      or_false] at hnumber
    omega

theorem mem_toList_of_ofNat_mem_bytes
    {s : String} {c : Char}
    (hsmall : c.toNat < 128) (hb : UInt8.ofNat c.toNat ∈ bytes s) :
    c ∈ s.toList := by
  rw [bytes_eq_flatMap, List.mem_flatMap] at hb
  obtain ⟨d, hd, hb⟩ := hb
  rwa [eq_of_ofNat_mem_utf8EncodeChar hsmall hb] at hd

theorem getLast?_toList_of_getLast?_bytes
    {s : String} {c : Char}
    (hsmall : c.toNat < 128) (hlast : (bytes s).getLast? = some (UInt8.ofNat c.toNat)) :
    s.toList.getLast? = some c := by
  rw [bytes_eq_flatMap] at hlast
  rcases List.eq_nil_or_concat s.toList with hnil | ⟨cs, d, hcs⟩
  · rw [hnil] at hlast
    cases hlast
  · have hd : String.utf8EncodeChar d ≠ [] := by
      rw [← List.length_pos_iff, String.length_utf8EncodeChar]
      exact d.utf8Size_pos
    rw [hcs, List.concat_eq_append, List.flatMap_append, List.flatMap_singleton,
      List.getLast?_append, List.getLast?_eq_some_getLast hd, Option.some_or] at hlast
    have hmem := List.getLast_mem hd
    rw [Option.some.inj hlast] at hmem
    rw [hcs, List.concat_eq_append, List.getLast?_concat,
      eq_of_ofNat_mem_utf8EncodeChar hsmall hmem]

end Text

theorem ExitStatus.isSuccess_iff
    {status : ExitStatus} :
    status.isSuccess = true ↔ status = .code 0 :=
  beq_iff_eq

namespace Execution

variable {closed : Bool} {line : List UInt8}

theorem byteLines_append
    (hfeed : 0x0A ∉ line) (before rest : List UInt8) :
    byteLines closed before (line ++ 0x0A :: rest) =
      endedLine (line.reverse ++ before) :: byteLines closed [] rest := by
  -- on the bytes of the line that are left, which go in front of those that were read
  induction line generalizing before with
  | nil => rfl
  | cons b line ih =>
      obtain ⟨hb, hline⟩ := not_or.1 (fun h => hfeed (List.mem_cons.2 h))
      rw [List.cons_append, byteLines, if_neg (Ne.symm hb), ih hline, List.reverse_cons,
        List.append_assoc, List.singleton_append]

theorem endedLine_reverse
    (hreturn : line.getLast? ≠ some 0x0D) :
    endedLine line.reverse = line := by
  rw [← List.head?_reverse] at hreturn
  unfold endedLine
  split
  · next heq =>
      rw [heq] at hreturn
      exact absurd rfl hreturn
  · exact List.reverse_reverse line

/-- A line as a process writes it. -/
def Writable (line : String) : Prop :=
  '\n' ∉ line.toList ∧ line.toList.getLast? ≠ some '\r'

instance : DecidablePred Writable :=
  fun _ => inferInstanceAs (Decidable (_ ∧ _))

/-- The bytes of some lines. -/
def written (lines : List String) : List UInt8 :=
  lines.flatMap fun line => Text.bytes line ++ [0x0A]

theorem byteLines_written
    {lines : List String}
    (hlines : ∀ line ∈ lines, Writable line) (closed : Bool) (rest : List UInt8) :
    byteLines closed [] (written lines ++ rest) =
      lines.map Text.bytes ++ byteLines closed [] rest := by
  induction lines with
  | nil => rfl
  | cons line lines ih =>
      obtain ⟨⟨hfeed, hreturn⟩, hlines⟩ := List.forall_mem_cons.1 hlines
      have hfeed' : 0x0A ∉ Text.bytes line := fun h =>
        hfeed (Text.mem_toList_of_ofNat_mem_bytes (by decide) h)
      have hreturn' : (Text.bytes line).getLast? ≠ some 0x0D := fun h =>
        hreturn (Text.getLast?_toList_of_getLast?_bytes (by decide) h)
      rw [written, List.flatMap_cons, List.append_assoc, List.append_assoc, List.singleton_append,
        byteLines_append hfeed', List.append_nil, endedLine_reverse hreturn']
      exact congrArg (Text.bytes line :: ·) (ih hlines)

/-- The error output of a process is some lines of text, and the process ended by itself. -/
structure Finished (p : Execution) (lines : List String) (status : ExitStatus) : Prop where
  errorLines_eq : p.errorLines = lines.map .ok
  ending_eq : p.ending = some status

theorem finished_written
    {lines : List String}
    (hlines : ∀ line ∈ lines, Writable line) (stdout : List UInt8) (status : ExitStatus) :
    Finished ⟨stdout, written lines, some status⟩ lines status := by
  have hbytes := byteLines_written hlines true []
  rw [List.append_nil, byteLines, List.isEmpty_nil, Bool.not_true, Bool.and_false,
    if_neg Bool.false_ne_true, List.append_nil] at hbytes
  constructor
  · show (byteLines true [] (written lines)).map Text.Utf8.decode = _
    rw [hbytes, List.map_map]
    apply List.map_congr_left
    intro line _
    exact Text.Utf8.decode_bytes line
  · rfl

/-- The first line of the error output that is no text comes after some lines. -/
def BreaksAfter (p : Execution) (lines : List String) (fault : Text.Utf8Fault) : Prop :=
  ∃ after, p.errorLines = lines.map .ok ++ .error fault :: after

theorem exists_breaksAfter
    {p : Execution} {fault : Text.Utf8Fault}
    (h : .error fault ∈ p.errorLines) :
    ∃ lines first, p.BreaksAfter lines first := by
  unfold BreaksAfter
  generalize p.errorLines = all at h ⊢
  induction all with
  | nil => cases h
  | cons line rest ih =>
      cases line with
      | error first => exact ⟨[], first, rest, rfl⟩
      | ok line =>
          have hrest : .error fault ∈ rest := by simpa using h
          obtain ⟨lines, first, after, hsplit⟩ := ih hrest
          exact ⟨line :: lines, first, after, by rw [hsplit, List.map_cons, List.cons_append]⟩

end Execution

end LibraryModels
