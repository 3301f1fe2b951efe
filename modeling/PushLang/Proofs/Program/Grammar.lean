import PushLang.Program.Reader

namespace PushLang.Program

/-- The tokens that stand for a sequence of atoms. -/
inductive Reads : List Token → List Atom → Prop where
  | nil : Reads [] []
  | word {text : List Char} {tokens : List Token} {atoms : List Atom} (rest : Reads tokens atoms) :
      Reads (.word text :: tokens) (Atom.ofWord text :: atoms)
  | group {inside tokens : List Token} {body atoms : List Atom} (inner : Reads inside body)
      (rest : Reads tokens atoms) :
      Reads (.opening :: (inside ++ .closing :: tokens)) (.program body :: atoms)

theorem Reads.append {front back : List Token} {before after : List Atom}
    (first : Reads front before) (second : Reads back after) :
    Reads (front ++ back) (before ++ after) := by
  induction first with
  | nil => exact second
  | word rest ih => exact .word ih
  | group inner rest innerIh restIh =>
    simpa only [List.cons_append, List.append_assoc] using Reads.group inner restIh

/-- Reading past tokens adds what they stand for to the current group, whatever is open around
it. -/
theorem Reads.readFrom_append {tokens : List Token} {atoms : List Atom} (reads : Reads tokens atoms)
    (outer : List (List Atom)) (current : List Atom) (rest : List Token) :
    readFrom outer current (tokens ++ rest) = readFrom outer (atoms.reverse ++ current) rest := by
  induction reads generalizing outer current rest with
  | nil => rfl
  | word _ ih =>
    simp only [List.cons_append, readFrom, ih, List.reverse_cons, List.append_assoc,
      List.nil_append]
  | group _ _ innerIh restIh =>
    simp only [List.cons_append, List.append_assoc, readFrom, innerIh, restIh, List.append_nil,
      List.reverse_reverse, List.reverse_cons, List.nil_append]

/-- What is still to come when some groups are open: the rest of the current group, and if that is
not the outermost one, the parenthesis that closes it and the same for the groups around it. -/
inductive Closes : List (List Atom) → List Atom → List Token → List Atom → Prop where
  | last {current atoms : List Atom} {tokens : List Token} (reads : Reads tokens atoms) :
      Closes [] current tokens (current.reverse ++ atoms)
  | close {before current atoms result : List Atom} {others : List (List Atom)}
      {inside tokens : List Token}
      (reads : Reads inside atoms) (rest :
        Closes others (.program (current.reverse ++ atoms) :: before) tokens result) :
      Closes (before :: others) current (inside ++ .closing :: tokens) result

private theorem Closes.prepend {outer : List (List Atom)} {current result front : List Atom}
    {tokens inside : List Token} (reads : Reads inside front)
    (rest : Closes outer (front.reverse ++ current) tokens result) :
    Closes outer current (inside ++ tokens) result := by
  cases rest with
  | @last _ atoms _ later =>
    have whole : Closes [] current (inside ++ tokens) (current.reverse ++ (front ++ atoms)) :=
      .last (reads.append later)
    simpa only [List.reverse_append, List.reverse_reverse, List.append_assoc] using whole
  | close later rest =>
    rw [← List.append_assoc]
    refine .close (reads.append later) ?_
    simpa only [List.reverse_append, List.reverse_reverse, List.append_assoc] using rest

/-- Whatever is read has the form of the grammar, with the open groups closed in turn. -/
theorem closes_of_readFrom {outer : List (List Atom)} {current result : List Atom}
    {tokens : List Token} (success : readFrom outer current tokens = .ok result) :
    Closes outer current tokens result := by
  induction tokens generalizing outer current with
  | nil =>
    cases outer with
    | nil =>
      have same : current.reverse = result := by simpa [readFrom] using success
      have done : Closes [] current [] (current.reverse ++ []) := .last .nil
      simpa only [List.append_nil, same] using done
    | cons before others => simp [readFrom] at success
  | cons token tokens ih =>
    cases token with
    | word text => exact Closes.prepend (Reads.word Reads.nil) (ih success)
    | closing =>
      cases outer with
      | nil => simp [readFrom] at success
      | cons before others =>
        have rest : Closes others (.program (current.reverse ++ []) :: before) tokens result := by
          simpa only [List.append_nil] using ih success
        exact Closes.close Reads.nil rest
    | opening =>
      -- The group that opens here is the innermost one of those that the induction hypothesis
      -- closes.
      cases ih success with
      | close reads rest =>
        have inner := Closes.prepend (Reads.group reads Reads.nil) rest
        simpa using inner

/-- Reading accepts just the tokens that stand for some atoms, and gives those atoms. -/
theorem readFrom_eq_ok_iff {tokens : List Token} {atoms : List Atom} :
    readFrom [] [] tokens = .ok atoms ↔ Reads tokens atoms := by
  constructor
  · intro success
    cases closes_of_readFrom success with
    | last reads => simpa using reads
  · intro reads
    simpa [readFrom] using reads.readFrom_append [] [] []

/-- A text is read as what its tokens stand for, without the outer group. -/
theorem ofChars_eq_ok_iff {text : List Char} {program : Program} :
    ofChars text = .ok program ↔ ∃ atoms, Reads (tokens text) atoms ∧ unwrap atoms = program := by
  simp only [ofChars, ← readFrom_eq_ok_iff]
  cases readFrom [] [] (tokens text) <;> simp [Except.map]

end PushLang.Program
