import SuperScaler.Proofs.Import
import Mathlib.Data.Nat.Digits

/-! `export_graph_to_tf_file` writes each in-edge of an sc node as an input string, and
the import reads input strings back into in-edges. For node names with no `:` and no leading `^`
or `_`, the import reads what the export wrote as the same node and output. The output index
is printed by an f-string and read back by `int`, which invert each other on every integer. -/

namespace SuperScaler.Proofs.Export
open SuperScaler.TF SuperScaler.Py SuperScaler.IR SuperScaler.TfAdapter SuperScaler.Proofs.Import

/-- The value of decimal digits, the most significant first. -/
def decimalValue (digits : List Nat) : Nat := digits.foldl (fun value digit => 10 * value + digit) 0

/-- The byte of a decimal digit in ASCII. -/
def digitByte (digit : Nat) : UInt8 := UInt8.ofNat (48 + digit)

private theorem digitChar_ne_colon : ∀ digit < 10, Nat.digitChar digit ≠ ':' := by decide

private theorem utf8EncodeChar_digitChar : ∀ digit < 10, String.utf8EncodeChar (Nat.digitChar digit) = [digitByte digit] := by
  decide

private theorem isDigitByte_digitByte : ∀ digit < 10, isDigitByte (digitByte digit) = true := by decide

private theorem isSpaceByte_digitByte : ∀ digit < 10, isSpaceByte (digitByte digit) = false := by decide

private theorem digitByte_unsigned : ∀ digit < 10, digitByte digit ≠ 45 ∧ digitByte digit ≠ 43 := by decide

private theorem digitByte_toNat : ∀ digit < 10, (digitByte digit).toNat - 48 = digit := by decide

private theorem toDigitsCore_append (fuel n : Nat) (ds : List Char) :
    Nat.toDigitsCore 10 fuel n ds = Nat.toDigitsCore 10 fuel n [] ++ ds := by
  induction fuel generalizing n ds with
  | zero => rfl
  | succ fuel ih =>
    simp only [Nat.toDigitsCore]
    split
    · rfl
    · rw [ih _ (_ :: ds), ih _ [_], List.append_assoc]
      rfl

private theorem toDigitsCore_digits : ∀ fuel n, n < fuel → ∃ digits : List Nat,
    Nat.toDigitsCore 10 fuel n [] = digits.map Nat.digitChar ∧ digits ≠ [] ∧ (∀ digit ∈ digits, digit < 10) ∧
      decimalValue digits = n
  | 0, _, enough => absurd enough (Nat.not_lt_zero _)
  | fuel + 1, n, enough => by
    simp only [Nat.toDigitsCore]
    split
    next single =>
      refine ⟨[n % 10], rfl, List.cons_ne_nil _ _, by simp [Nat.mod_lt], ?_⟩
      simp only [decimalValue, List.foldl_cons, List.foldl_nil]
      omega
    next more =>
      obtain ⟨digits, printed, _, small, value⟩ := toDigitsCore_digits fuel (n / 10) (by omega)
      refine ⟨digits ++ [n % 10], by rw [toDigitsCore_append, printed, List.map_append]; rfl, by simp, ?_, ?_⟩
      · intro digit member
        rcases List.mem_append.mp member with member | member
        · exact small digit member
        · rw [List.mem_singleton.mp member]
          exact Nat.mod_lt _ (by decide)
      · simp only [decimalValue, List.foldl_append, List.foldl_cons, List.foldl_nil] at value ⊢
        omega

private theorem parseDigits_bytes : ∀ (bytes : Bytes) (value : Nat), (∀ byte ∈ bytes, isDigitByte byte = true) →
    parseDigits bytes value = some (bytes.foldl (fun value byte => 10 * value + (byte.toNat - 48)) value)
  | [], _, _ => rfl
  | [byte], value, digits => by simp [parseDigits, digits byte (List.mem_singleton_self _)]
  | byte :: next :: rest, value, digits => by
    have underscore : next ≠ 95 := fun same => absurd (digits next (by simp)) (by rw [same]; decide)
    simp only [parseDigits, digits byte (List.mem_cons_self _ _), underscore, if_true, if_false]
    rw [parseDigits_bytes (next :: rest) _ fun other member => digits other (List.mem_cons_of_mem _ member)]
    rfl

section Digits
variable {digits : List Nat} (small : ∀ digit ∈ digits, digit < 10)
include small

private theorem encodeUtf8_digits : encodeUtf8 ⟨digits.map Nat.digitChar⟩ = digits.map digitByte := by
  induction digits with
  | nil => rfl
  | cons digit rest ih =>
    simp only [encodeUtf8, List.map_cons, List.flatMap_cons] at ih ⊢
    rw [utf8EncodeChar_digitChar digit (small digit (List.mem_cons_self _ _)),
      ih fun other member => small other (List.mem_cons_of_mem _ member)]
    rfl

private theorem dropWhile_digits (nonempty : digits ≠ []) (rest : Bytes) :
    (digits.map digitByte ++ rest).dropWhile isSpaceByte = digits.map digitByte ++ rest := by
  obtain ⟨digit, others, rfl⟩ := List.exists_cons_of_ne_nil nonempty
  rw [List.map_cons, List.cons_append, List.dropWhile_cons_of_neg]
  simp [isSpaceByte_digitByte digit (small digit (List.mem_cons_self _ _))]

private theorem parseDigits_digits : parseDigits (digits.map digitByte) 0 = some (decimalValue digits) := by
  rw [parseDigits_bytes _ _ (by simpa using fun digit member => isDigitByte_digitByte digit (small digit member)),
    List.foldl_map, decimalValue]
  exact congrArg some (List.foldl_ext _ _ _ fun value digit member => by
    rw [digitByte_toNat digit (small digit member)])

end Digits

private theorem splitSign_unsigned {byte : UInt8} (minus : byte ≠ 45) (plus : byte ≠ 43) (rest : Bytes) :
    splitSign (byte :: rest) = (false, byte :: rest) := by
  unfold splitSign
  split <;> simp_all

private theorem parseIntStr_toString (k : Int) : parseIntStr (toString k) = .ok k := by
  cases k with
  | ofNat n =>
    obtain ⟨digits, printed, nonempty, small, value⟩ := toDigitsCore_digits (n + 1) n (Nat.lt_succ_self n)
    have text : toString (Int.ofNat n) = ⟨digits.map Nat.digitChar⟩ := by
      show String.mk (Nat.toDigitsCore 10 (n + 1) n []) = _
      rw [printed]
    have trimmed := dropWhile_digits small nonempty []
    have trimmedEnd := @dropWhile_digits digits.reverse (by simpa using small) (by simpa using nonempty) []
    obtain ⟨digit, others, rfl⟩ := List.exists_cons_of_ne_nil nonempty
    have unsigned := digitByte_unsigned digit (small digit (List.mem_cons_self _ _))
    rw [List.append_nil] at trimmed trimmedEnd
    rw [parseIntStr, text, encodeUtf8_digits small]
    simp only [parseInt, trimmed, ← List.map_reverse, trimmedEnd, List.reverse_reverse]
    rw [List.map_cons, splitSign_unsigned unsigned.1 unsigned.2, ← List.map_cons,
      parseDigits_digits small, value]
    rfl
  | negSucc m =>
    obtain ⟨digits, printed, nonempty, small, value⟩ := toDigitsCore_digits (m + 2) (m + 1) (by omega)
    have text : toString (Int.negSucc m) = ⟨'-' :: digits.map Nat.digitChar⟩ := by
      show String.mk ('-' :: Nat.toDigitsCore 10 (m + 2) (m + 1) []) = _
      rw [printed]
    have encoded : encodeUtf8 ⟨'-' :: digits.map Nat.digitChar⟩ = 45 :: encodeUtf8 ⟨digits.map Nat.digitChar⟩ := rfl
    have trimmedEnd := @dropWhile_digits digits.reverse (by simpa using small) (by simpa using nonempty) [45]
    have minus : ¬ isSpaceByte 45 = true := by decide
    rw [parseIntStr, text, encoded, encodeUtf8_digits small]
    simp only [parseInt, List.dropWhile_cons_of_neg minus, List.reverse_cons, ← List.map_reverse, trimmedEnd,
      List.reverse_append, List.reverse_reverse, List.reverse_singleton, List.reverse_nil, List.nil_append,
      List.singleton_append]
    rw [show splitSign (45 :: digits.map digitByte) = (true, digits.map digitByte) from rfl, parseDigits_digits small,
      value]
    obtain ⟨digit, others, rfl⟩ := List.exists_cons_of_ne_nil nonempty
    rfl

private theorem colon_not_mem_toString (k : Int) : ':' ∉ (toString k).data := by
  have digitsOnly : ∀ n, ':' ∉ (toString n).data := fun n => by
    obtain ⟨digits, printed, -, small, -⟩ := toDigitsCore_digits (n + 1) n (Nat.lt_succ_self n)
    show ':' ∉ Nat.toDigitsCore 10 (n + 1) n []
    rw [printed, List.mem_map]
    exact fun ⟨digit, member, same⟩ => digitChar_ne_colon digit (small digit member) same
  cases k with
  | ofNat n => exact digitsOnly n
  | negSucc m => exact fun member => digitsOnly (m + 1) ((List.mem_cons.mp member).resolve_left (by decide))

private theorem pySplit_ne_nil {α : Type} [DecidableEq α] (separator : α) : ∀ items : List α, pySplit separator items ≠ []
  | [] => nofun
  | item :: rest => by
    simp only [pySplit]
    split
    · nofun
    · split <;> nofun

private theorem pySplit_append {α : Type} [DecidableEq α] {separator : α} :
    ∀ {items : List α}, separator ∉ items → ∀ rest : List α,
      pySplit separator (items ++ rest) = (items ++ (pySplit separator rest).headD []) :: (pySplit separator rest).tail
  | [], _, rest => by
    obtain ⟨first, others, pieces⟩ := List.exists_cons_of_ne_nil (pySplit_ne_nil separator rest)
    simp [pieces]
  | item :: items, absent, rest => by
    have different : item ≠ separator := fun same => absent (same ▸ List.mem_cons_self _ _)
    rw [List.cons_append]
    simp only [pySplit, different, if_false, pySplit_append (fun member => absent (List.mem_cons_of_mem _ member)) rest]
    rfl

private theorem strSplit_plain {text : String} (plain : ':' ∉ text.data) : strSplit text ':' = [text] := by
  have pieces := pySplit_append plain []
  rw [List.append_nil] at pieces
  simp [strSplit, pieces, pySplit]

private theorem strSplit_pair {name index : String} (plainName : ':' ∉ name.data) (plainIndex : ':' ∉ index.data) :
    strSplit (name ++ ":" ++ index) ':' = [name, index] := by
  have pieces := pySplit_append plainName (':' :: index.data)
  have indexPieces := pySplit_append plainIndex []
  rw [List.append_nil] at indexPieces
  have data : (name ++ ":" ++ index).data = name.data ++ ':' :: index.data := by simp
  simp [strSplit, data, pieces, pySplit, indexPieces]

/-- A node name the import reads back as it is: no `:`, and neither `^` nor `_` in front. -/
def PlainName (name : String) : Prop :=
  ':' ∉ name.data ∧ name.data.head? ≠ some '^' ∧ name.data.head? ≠ some '_'

private theorem startswith_caret {text : String} (head : text.data.head? ≠ some '^') : startswith text "^" = false := by
  obtain ⟨chars⟩ := text
  cases chars with
  | nil => rfl
  | cons char rest =>
    have different : char ≠ '^' := fun same => head (by rw [same]; rfl)
    simp [startswith, List.isPrefixOf, Ne.symm different]

private theorem addScBeforeUnderscore_plain {name : String} (head : name.data.head? ≠ some '_') :
    addScBeforeUnderscore name = name := by
  have plain : startsWithUnderscore name = false := by
    unfold startsWithUnderscore
    split
    next rest underscore => rw [underscore] at head; exact absurd rfl head
    next => rfl
  simp [addScBeforeUnderscore, plain]

private theorem inputSource_inEdgeStr {srcName : String} (plain : PlainName srcName) (srcIdx : Int) :
    inputSource (inEdgeStr srcName srcIdx) = some (srcName, srcIdx) := by
  obtain ⟨noColon, noCaret, noUnderscore⟩ := plain
  unfold inEdgeStr inputSource
  split
  next control =>
    subst control
    have caret : startswith ("^" ++ srcName) "^" = true := by simp [startswith, List.isPrefixOf]
    rw [if_pos caret]
    show some (addScBeforeUnderscore ⟨srcName.data⟩, -1) = _
    rw [addScBeforeUnderscore_plain noUnderscore]
  next data =>
    split
    next first =>
      rw [startswith_caret noCaret, if_neg Bool.false_ne_true, strSplit_plain noColon, first]
      simp [addScBeforeUnderscore_plain noUnderscore]
    next other =>
      have notCaret : (srcName ++ ":" ++ toString srcIdx).data.head? ≠ some '^' := by
        cases chars : srcName.data with
        | nil => simp [chars]
        | cons char rest => simpa [chars] using noCaret
      rw [startswith_caret notCaret, if_neg Bool.false_ne_true, strSplit_pair noColon (colon_not_mem_toString srcIdx)]
      simp [parseIntStr_toString, addScBeforeUnderscore_plain noUnderscore]

/-- For every node of an sc graph whose in-edges come from nodes with plain names, the import
reads the inputs the export writes for the node as the source names and output indices of its
in-edges, in order. -/
theorem import_reads_exported_inputs (graph : Graph) (node : Node)
    (plain : ∀ edge ∈ node.inEdges, PlainName (graph.node edge.srcNode).name) :
    (exportInputs graph node).map inputSource =
      node.inEdges.map fun edge => some ((graph.node edge.srcNode).name, edge.srcIdx) := by
  simp only [exportInputs, List.map_map]
  exact List.map_congr_left fun edge member => inputSource_inEdgeStr (plain edge member) edge.srcIdx

def splitGraph : Graph :=
  ⟨[⟨"split", .other "Split", [], [], 2, false⟩, ⟨"y", .other "Const", [], [], 1, false⟩,
    ⟨"init", .other "NoOp", [], [], 0, false⟩,
    ⟨"add", .other "Add", [], [⟨0, 1, 3, 0⟩, ⟨1, 0, 3, 1⟩, ⟨2, -1, 3, 2⟩], 1, false⟩]⟩

theorem import_reads_exported_split_inputs :
    (∀ edge ∈ (splitGraph.node 3).inEdges, PlainName (splitGraph.node edge.srcNode).name) ∧
    (exportInputs splitGraph (splitGraph.node 3)).map inputSource =
      (splitGraph.node 3).inEdges.map fun edge => some ((splitGraph.node edge.srcNode).name, edge.srcIdx) :=
  have plain : ∀ edge ∈ (splitGraph.node 3).inEdges, PlainName (splitGraph.node edge.srcNode).name := by
    unfold PlainName; decide
  ⟨plain, import_reads_exported_inputs splitGraph (splitGraph.node 3) plain⟩

end SuperScaler.Proofs.Export
