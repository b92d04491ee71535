import GameScript.Proofs.Token.Cursor
import GameScript.Proofs.Token.Macros

/-! The stream of tokens of a text.

A scan goes from event to event, and each one lies ahead of the last.  So a scan ends by
itself, its tokens stand one after the other, and the last one tells why it ended. -/

namespace GameScript.Token

open Text

def Event.after? : Event → Option Cursor
  | .finish _ | .halt _ _ => none
  | .token _ _ after | .pass _ after | .define _ _ _ _ after => some after

/-- A scan from a cursor on, event by event, without a bound on their number. -/
inductive Scans (target : Target) : Cursor → MacroTable → Scan → Prop where
  | finish {cursor : Cursor} {macros : MacroTable} {pos : Position}
      (event : cursor.event target = .finish pos) :
      Scans target cursor macros ⟨[⟨.eof, pos⟩], [], macros⟩
  | halt {cursor : Cursor} {macros : MacroTable} {token : Token} {errors : List LexError}
      (event : cursor.event target = .halt token errors) :
      Scans target cursor macros ⟨[token], errors, macros⟩
  | token {cursor after : Cursor} {macros : MacroTable} {token : Token}
      {errors : List LexError}
      {scan : Scan} (event : cursor.event target = .token token errors after)
      (following : Scans target after macros scan) :
      Scans target cursor macros (scan.push token errors)
  | pass {cursor after : Cursor} {macros : MacroTable} {errors : List LexError}
      {scan : Scan} (event : cursor.event target = .pass errors after)
      (following : Scans target after macros scan) :
      Scans target cursor macros (scan.blame errors)
  | again {cursor after : Cursor} {macros : MacroTable} {pos : Position} {name : String}
      {content : List Char} {bodyStart : Nat} {scan : Scan}
      (event : cursor.event target = .define pos name content bodyStart after)
      (known : macros.contains name = true) (following : Scans target after macros scan) :
      Scans target cursor macros (scan.blame [⟨pos, .duplicateMacro name⟩])
  | define {cursor after : Cursor} {macros : MacroTable} {pos : Position} {name : String}
      {content : List Char} {bodyStart : Nat} {body scan : Scan}
      (event : cursor.event target = .define pos name content bodyStart after)
      (fresh : macros.contains name = false)
      (inside : Scans target ⟨content, bodyStart⟩ macros body)
      (following : Scans target after (body.macros.insert name body.body) scan) :
      Scans target cursor macros (scan.blame body.errors)

variable {cursor : Cursor} {target : Target} {macros : MacroTable}

/-- Characters are enough fuel. -/
theorem scanFrom_scans (target : Target) {fuel : Nat}
    (enough : cursor.rest.length < fuel) (macros : MacroTable) :
    Scans target cursor macros (scanFrom target fuel cursor macros) := by
  induction fuel generalizing cursor macros with
  | zero => exact absurd enough (Nat.not_lt_zero _)
  | succ fuel induction =>
    rw [scanFrom]
    cases event : cursor.event target with
    | finish pos => exact .finish event
    | halt token errors => exact .halt event
    | token token errors after =>
      cases Cursor.follows_of_event event with
      | token reaches passes _ _ _ =>
        have shorter := (reaches.trans_passes passes).length_lt
        exact .token event (induction (by omega) macros)
    | pass errors after =>
      cases Cursor.follows_of_event event with
      | pass passes _ =>
        have shorter := passes.length_lt
        exact .pass event (induction (by omega) macros)
    | define pos name content bodyStart after =>
      cases Cursor.follows_of_event event with
      | define passes isContent _ _ =>
        have shorter := passes.length_lt
        have shorterAfter := isContent.reaches.length_le
        have shorterContent := isContent.short
        dsimp only
        split
        · next known => exact .again event known (induction (by omega) macros)
        · next fresh =>
            refine .define event (Bool.eq_false_iff.mpr fresh) (induction ?_ macros)
              (induction (by omega) _)
            exact Nat.lt_of_le_of_lt shorterContent (by omega)

/-- The tokens of a scan, cut before the last one: positions increase, and the last token
is the end of the text, or the place of the fault that was found last. -/
structure Scan.EndsIn (scan : Scan) (size : Nat) (front : List Token) (last : Token) :
    Prop where
  tokens : scan.tokens = front ++ [last]
  proper : ∀ token ∈ front, token.lexeme.kind ≠ .eof ∧ token.lexeme.kind ≠ .invalid
  ascending : (front ++ [last]).Pairwise (·.pos < ·.pos)
  ending : last.lexeme.kind = .eof ∧ last.pos = size ∨
    last.lexeme.kind = .invalid ∧ ∃ errors fault,
      scan.errors = errors ++ [⟨last.pos, fault⟩] ∧ fault.isHalting = true

/-- The tokens of a scan stand at `low` or behind it. -/
def Scan.IsStream (scan : Scan) (size low : Nat) : Prop :=
  ∃ front last, scan.EndsIn size front last ∧ ∀ token ∈ front ++ [last], low ≤ token.pos

namespace Scan.IsStream

variable {scan : Scan} {size low : Nat}

theorem mono {lower : Nat} (stream : scan.IsStream size low) (le : lower ≤ low) :
    scan.IsStream size lower := by
  obtain ⟨front, last, ends, above⟩ := stream
  exact ⟨front, last, ends, fun token member => Nat.le_trans le (above token member)⟩

theorem blame (stream : scan.IsStream size low) (errors : List LexError) :
    (scan.blame errors).IsStream size low := by
  obtain ⟨front, last, ends, above⟩ := stream
  refine ⟨front, last, ⟨ends.tokens, ends.proper, ends.ascending, ?_⟩, above⟩
  refine ends.ending.imp_right fun ⟨invalid, found, fault, all, halting⟩ => ?_
  refine ⟨invalid, errors ++ found, fault, ?_, halting⟩
  rw [Scan.blame, all, List.append_assoc]

theorem push {token : Token} (stream : scan.IsStream size (token.pos + 1))
    (above : low ≤ token.pos) (noEnd : token.lexeme.kind ≠ .eof)
    (valid : token.lexeme.kind ≠ .invalid) (errors : List LexError) :
    (scan.push token errors).IsStream size low := by
  obtain ⟨front, last, ends, behind⟩ := stream.blame errors
  refine ⟨token :: front, last, ⟨?_, ?_, ?_, ends.ending⟩, ?_⟩
  · exact congrArg (token :: ·) ends.tokens
  · exact List.forall_mem_cons.mpr ⟨⟨noEnd, valid⟩, ends.proper⟩
  · exact List.pairwise_cons.mpr ⟨behind, ends.ascending⟩
  · exact List.forall_mem_cons.mpr
      ⟨above, fun other member => Nat.le_trans above (Nat.le_of_lt (behind other member))⟩

theorem finish (size : Nat) (le : low ≤ size) (macros : MacroTable) :
    IsStream ⟨[⟨.eof, size⟩], [], macros⟩ size low :=
  ⟨[], ⟨.eof, size⟩, ⟨rfl, by simp, List.pairwise_singleton _ _, .inl ⟨rfl, rfl⟩⟩,
    by simpa using le⟩

theorem halt {pos : Position} (le : low ≤ pos) {fault : LexFault}
    (halting : fault.isHalting = true) (macros : MacroTable) :
    IsStream ⟨[⟨.invalid, pos⟩], [⟨pos, fault⟩], macros⟩ size low :=
  ⟨[], ⟨.invalid, pos⟩,
    ⟨rfl, by simp, List.pairwise_singleton _ _, .inr ⟨rfl, [], fault, rfl, halting⟩⟩,
    by simpa using le⟩

end Scan.IsStream

theorem Cursor.position_eq {size : Nat}
    (sized : cursor.offset + byteLength cursor.rest = size)
    (small : size ≤ Position.limit) :
    cursor.position = cursor.offset :=
  Nat.min_eq_left (by omega)

theorem Scans.isStream {scan : Scan} (scans : Scans target cursor macros scan) {size : Nat}
    (sized : cursor.offset + byteLength cursor.rest = size)
    (small : size ≤ Position.limit) :
    scan.IsStream size cursor.offset := by
  induction scans with
  | @finish cursor macros pos event =>
    cases Cursor.follows_of_event event with
    | @finish site reaches atEnd =>
      have ends := reaches.end_eq.trans sized
      rw [Cursor.position_eq ends small]
      have whole : site.offset = size := by simpa [atEnd] using ends
      rw [whole]
      exact .finish size (whole ▸ reaches.offset_le) macros
  | @halt cursor macros token errors event =>
    cases Cursor.follows_of_event event with
    | halt reaches halting =>
      rw [Cursor.position_eq (reaches.end_eq.trans sized) small]
      exact .halt reaches.offset_le halting macros
  | @token cursor after macros token errors scan event _ induction =>
    cases Cursor.follows_of_event event with
    | @token site _ lexeme _ reaches passes noEnd valid _ =>
      have stream := induction ((reaches.trans passes.1).end_eq.trans sized)
      rw [Cursor.position_eq (reaches.end_eq.trans sized) small]
      refine Scan.IsStream.push ?_ reaches.offset_le noEnd valid errors
      exact stream.mono passes.2
  | @pass cursor after macros errors scan event _ induction =>
    cases Cursor.follows_of_event event with
    | pass passes _ =>
      have scanned := (induction (passes.1.end_eq.trans sized)).mono passes.1.offset_le
      exact scanned.blame errors
  | @again cursor after macros pos name content bodyStart scan event _ _ induction =>
    cases Cursor.follows_of_event event with
    | define passes isContent _ _ =>
      have passes := passes.trans_reaches isContent.reaches
      exact ((induction (passes.1.end_eq.trans sized)).mono passes.1.offset_le).blame _
  | @define cursor after macros pos name content bodyStart body scan event _ _ _ _
    induction =>
    cases Cursor.follows_of_event event with
    | define passes isContent _ _ =>
      have passes := passes.trans_reaches isContent.reaches
      exact ((induction (passes.1.end_eq.trans sized)).mono passes.1.offset_le).blame _

theorem Scans.macros_grow {scan : Scan}
    (scans : Scans target cursor macros scan) : macros.bodies <+: scan.macros.bodies := by
  induction scans with
  | finish _ => exact List.prefix_rfl
  | halt _ => exact List.prefix_rfl
  | token _ _ induction => exact induction
  | pass _ _ induction => exact induction
  | again _ _ _ induction => exact induction
  | @define cursor after macros pos name content bodyStart body scan _ _ _ _ inside
    behind =>
    exact (inside.trans (body.macros.prefix_insert name body.body)).trans behind

/-- The cursor stands on a boundary between characters of a text that begins at an
offset, in front of the rest of the text. -/
structure Cursor.StandsIn (cursor : Cursor) (text : List Char) (start : Nat) : Prop where
  start_le : start ≤ cursor.offset
  boundary : (⟨cursor.offset - start⟩ : String.Pos.Raw).IsValid (String.ofList text)
  rest : ∃ passed, text = passed ++ cursor.rest ∧ byteLength passed = cursor.offset - start

theorem Cursor.Reaches.standsIn {text : List Char} {start : Nat}
    (reaches : Reaches ⟨text, start⟩ cursor) : cursor.StandsIn text start := by
  obtain ⟨passed, split, offset⟩ := reaches
  have size : cursor.offset - start = byteLength passed := by
    simp only at offset
    omega
  refine ⟨?_, ?_, passed, split, size.symm⟩
  · simp only at offset
    omega
  · refine String.Pos.Raw.isValid_iff_exists_append.mpr
      ⟨String.ofList passed, String.ofList cursor.rest, ?_, ?_⟩
    · rw [← String.ofList_append, ← split]
    · rw [size, byteLength_eq_utf8ByteSize]
      rfl

/-- A cursor of a scan, in a text that begins at an offset: the source or a macro body. -/
structure Visit where
  text : List Char
  start : Nat
  cursor : Cursor

def Visit.move (visit : Visit) (cursor : Cursor) : Visit := { visit with cursor }

def Visit.opening (text : List Char) (start : Nat) : Visit := ⟨text, start, ⟨text, start⟩⟩

/-- A scan that goes on at the first visit with the macros comes to the second visit. -/
inductive Visits (target : Target) : Visit → MacroTable → Visit → Prop where
  | here (visit : Visit) (macros : MacroTable) : Visits target visit macros visit
  | token {visit later : Visit} {macros : MacroTable} {token : Token}
      {errors : List LexError}
      {after : Cursor} (event : visit.cursor.event target = .token token errors after)
      (following : Visits target (visit.move after) macros later) :
      Visits target visit macros later
  | pass {visit later : Visit} {macros : MacroTable} {errors : List LexError}
      {after : Cursor} (event : visit.cursor.event target = .pass errors after)
      (following : Visits target (visit.move after) macros later) :
      Visits target visit macros later
  | again {visit later : Visit} {macros : MacroTable} {pos : Position} {name : String}
      {content : List Char} {bodyStart : Nat} {after : Cursor}
      (event : visit.cursor.event target = .define pos name content bodyStart after)
      (known : macros.contains name = true)
      (following : Visits target (visit.move after) macros later) :
      Visits target visit macros later
  | inside {visit later : Visit} {macros : MacroTable} {pos : Position} {name : String}
      {content : List Char} {bodyStart : Nat} {after : Cursor}
      (event : visit.cursor.event target = .define pos name content bodyStart after)
      (fresh : macros.contains name = false)
      (body : Visits target (.opening content bodyStart) macros later) :
      Visits target visit macros later
  | behind {visit later : Visit} {macros : MacroTable} {pos : Position} {name : String}
      {content : List Char} {bodyStart : Nat} {after : Cursor} {body : Scan}
      (event : visit.cursor.event target = .define pos name content bodyStart after)
      (fresh : macros.contains name = false)
      (inside : Scans target ⟨content, bodyStart⟩ macros body)
      (following : Visits target (visit.move after)
        (body.macros.insert name body.body) later) :
      Visits target visit macros later

/-- The cursor of a visit stands on a boundary of the text.  No step from there on, through
the gap and the event that follow, ends inside a character or outside the text, and the
cursor behind the event stands on a boundary further on. -/
structure Visit.IsSound (visit : Visit) (target : Target) : Prop where
  stands : visit.cursor.StandsIn visit.text visit.start
  steps : visit.cursor.event? target = some (visit.cursor.event target)
  advances : ∀ after, (visit.cursor.event target).after? = some after →
    after.StandsIn visit.text visit.start ∧ visit.cursor.offset < after.offset

theorem Cursor.event_passes {after : Cursor}
    (found : (cursor.event target).after? = some after) : cursor.Passes after := by
  have follows := cursor.event_follows target
  generalize cursor.event target = event at found follows
  cases follows with
  | finish _ _ => cases found
  | halt _ _ => cases found
  | token reaches passes _ _ _ =>
    cases found
    exact reaches.trans_passes passes
  | pass passes _ =>
    cases found
    exact passes
  | define passes isContent _ _ =>
    cases found
    exact passes.trans_reaches isContent.reaches

theorem Visits.reaches {visit later : Visit} (visits : Visits target visit macros later)
    (reaches : Cursor.Reaches ⟨visit.text, visit.start⟩ visit.cursor) :
    Cursor.Reaches ⟨later.text, later.start⟩ later.cursor := by
  induction visits with
  | here _ _ => exact reaches
  | token event _ induction =>
    exact induction (reaches.trans (Cursor.event_passes (congrArg Event.after? event)).1)
  | pass event _ induction =>
    exact induction (reaches.trans (Cursor.event_passes (congrArg Event.after? event)).1)
  | again event _ _ induction =>
    exact induction (reaches.trans (Cursor.event_passes (congrArg Event.after? event)).1)
  | inside _ _ _ induction => exact induction (.refl _)
  | behind event _ _ _ induction =>
    exact induction (reaches.trans (Cursor.event_passes (congrArg Event.after? event)).1)

theorem Visits.isSound {text : List Char} {start : Nat}
    {visit : Visit} (visits : Visits target (.opening text start) macros visit) :
    visit.IsSound target := by
  have reaches := visits.reaches (.refl _)
  refine ⟨reaches.standsIn, visit.cursor.event?_eq target, fun after found => ?_⟩
  have passes := Cursor.event_passes found
  exact ⟨(reaches.trans passes.1).standsIn, passes.2⟩

/-- Scanning a text of less than 2³² bytes.  The scan ends by itself.  A step of so many
bytes is made exactly if it ends at a boundary between characters, and every step of the
scan is made, in macro bodies too; the cursor lies further on after each token and
directive.  Its tokens end with the only one that is no proper token, which is copied
behind them, and stand at increasing positions; that last token is the end of the text, or
the place of the fault found last, after which nothing is read.  Macros are only added. -/
theorem scan_wellFormed (target : Target) (macros : MacroTable) (text : String)
    (small : text.utf8ByteSize < 2 ^ 32) :
    Scans target ⟨text.toList, 0⟩ macros (scan target macros text) ∧
    (∀ (cursor : Cursor) (bytes : Nat), (cursor.step? bytes).isSome = true ↔
      (⟨bytes⟩ : String.Pos.Raw).IsValid (String.ofList cursor.rest)) ∧
    (∀ visit, Visits target (.opening text.toList 0) macros visit → visit.IsSound target) ∧
    (∃ front last, (scan target macros text).EndsIn text.utf8ByteSize front last ∧
      (scan target macros text).padded = front ++ [last] ++ List.replicate 8 last) ∧
    macros.bodies <+: (scan target macros text).macros.bodies ∧
    ∀ name body, macros.get? name = some body →
      (scan target macros text).macros.get? name = some body := by
  have scans : Scans target ⟨text.toList, 0⟩ macros (scan target macros text) :=
    scanFrom_scans target (Nat.lt_succ_self _) macros
  have size : byteLength text.toList = text.utf8ByteSize := by
    rw [byteLength_eq_utf8ByteSize, String.ofList_toList]
  have limit : text.utf8ByteSize ≤ Position.limit := Nat.le_pred_of_lt small
  refine ⟨scans, Cursor.step?_isSome_iff, fun visit visits => visits.isSound, ?_,
    scans.macros_grow, fun name body => MacroTable.get?_of_prefix scans.macros_grow⟩
  obtain ⟨front, last, ends, -⟩ := scans.isStream (by simpa using size) limit
  refine ⟨front, last, ends, ?_⟩
  have whole : (scan target macros text).tokens = front ++ [last] := ends.tokens
  rw [Scan.padded, whole, List.getLast?_concat]
  rfl

/-- A macro in a macro body, characters of two bytes, and a fault at the end. -/
theorem nestedDirective_wellFormed :
    let text := "#macro A #macro B \"é\"\nx /* é */ @"
    text.utf8ByteSize < 2 ^ 32 ∧
      ∃ front last, (scan default {} text).EndsIn text.utf8ByteSize front last ∧
        (scan default {} text).padded = front ++ [last] ++ List.replicate 8 last := by
  intro text
  have small : text.utf8ByteSize < 2 ^ 32 := by decide
  exact ⟨small, (scan_wellFormed default {} text small).2.2.2.1⟩

def Scan.endsInvalid (scan : Scan) : Bool :=
  scan.tokens.getLast?.any (·.lexeme.kind = .invalid)

theorem Scan.isHalted_blame_of {scan : Scan} (errors : List LexError)
    (halted : scan.isHalted = true) : (scan.blame errors).isHalted = true := by
  rw [isHalted, blame]
  rw [isHalted] at halted
  dsimp only
  rw [List.getLast?_append]
  cases found : scan.errors.getLast? with
  | some last => rwa [found] at halted
  | none =>
    rw [found] at halted
    cases halted

theorem Scan.endsInvalid_push {token : Token} (valid : token.lexeme.kind ≠ .invalid)
    (errors : List LexError) (scan : Scan) :
    (scan.push token errors).endsInvalid = scan.endsInvalid := by
  rw [endsInvalid, endsInvalid, push]
  dsimp only
  rw [List.getLast?_cons]
  cases scan.tokens.getLast? with
  | some last => rfl
  | none => simpa using valid

theorem Scans.isHalted_of_endsInvalid
    {scan : Scan} (scans : Scans target cursor macros scan)
    (ends : scan.endsInvalid = true) :
    scan.isHalted = true := by
  induction scans with
  | finish _ => cases ends
  | halt event =>
    cases Cursor.follows_of_event event with
    | halt _ halting => exact halting
  | token event _ induction =>
    cases Cursor.follows_of_event event with
    | token _ _ _ valid _ =>
      rw [Scan.endsInvalid_push valid] at ends
      exact Scan.isHalted_blame_of _ (induction ends)
  | pass _ _ induction => exact Scan.isHalted_blame_of _ (induction ends)
  | again _ _ _ induction => exact Scan.isHalted_blame_of _ (induction ends)
  | define _ _ _ _ _ induction => exact Scan.isHalted_blame_of _ (induction ends)

theorem Scans.endsInvalid_nil {offset : Nat} {scan : Scan}
    (scans : Scans target ⟨[], offset⟩ macros scan) : scan.endsInvalid = false := by
  cases scans with
  | finish _ => rfl
  | halt event => cases event
  | token event _ => cases event
  | pass event _ => cases event
  | again event _ _ => cases event
  | define event _ _ _ => cases event

theorem Cursor.Reaches.oneLine {later : Cursor} (reaches : cursor.Reaches later)
    (oneLine : '\n' ∉ cursor.rest) : '\n' ∉ later.rest := by
  obtain ⟨taken, cut, -⟩ := reaches
  rw [cut] at oneLine
  exact fun member => oneLine (List.mem_append_right _ member)

/-- A directive that defines a macro takes the rest of the line, so one line that defines
any is read to its end. -/
theorem Scans.endsInvalid_oneLine
    {scan : Scan} (scans : Scans target cursor macros scan) (oneLine : '\n' ∉ cursor.rest)
    (defines : scan.macros ≠ macros) : scan.endsInvalid = false := by
  induction scans with
  | finish _ => exact absurd rfl defines
  | halt _ => exact absurd rfl defines
  | token event _ induction =>
    cases Cursor.follows_of_event event with
    | token reaches passes _ valid _ =>
      rw [Scan.endsInvalid_push valid]
      exact induction ((reaches.trans passes.1).oneLine oneLine) defines
  | pass event _ induction =>
    cases Cursor.follows_of_event event with
    | pass passes _ => exact induction (passes.1.oneLine oneLine) defines
  | again event _ _ induction =>
    cases Cursor.follows_of_event event with
    | define passes isContent _ _ =>
      exact induction ((passes.1.trans isContent.reaches).oneLine oneLine) defines
  | @define _ after _ _ _ _ _ _ _ event _ _ following _ _ =>
    cases Cursor.follows_of_event event with
    | define passes isContent _ _ =>
      obtain ⟨rest, offset⟩ := after
      cases isContent.whole (passes.1.oneLine oneLine)
      exact following.endsInvalid_nil

/-- The macros that a table has beyond another one have bodies of proper tokens. -/
def AddsProper (table other : MacroTable) : Prop :=
  ∀ entry ∈ other.bodies, table.contains entry.1 = false →
    ∀ token ∈ entry.2, token.lexeme.kind ≠ .invalid

theorem Scan.endsInvalid_of_body {scan : Scan}
    (proper : ∀ token ∈ scan.body, token.lexeme.kind ≠ .invalid) :
    scan.endsInvalid = false := by
  rw [endsInvalid]
  cases last : scan.tokens.getLast? with
  | none => rfl
  | some token =>
    refine decide_eq_false fun invalid => ?_
    obtain ⟨⟨kind, payload⟩, pos⟩ := token
    cases invalid
    have body : scan.body = scan.tokens := by rw [Scan.body, last]
    exact proper _ (body ▸ List.mem_of_getLast? last) rfl

/-- Where the bodies of the macros that a run adds are proper, and it is read to its end,
no error is a reason to stop. -/
theorem Scans.mild {scan : Scan}
    (scans : Scans target cursor macros scan) (proper : AddsProper macros scan.macros)
    (ends : scan.endsInvalid = false) :
    ∀ error ∈ scan.errors, error.fault.isHalting = false := by
  induction scans with
  | finish _ => exact nofun
  | halt event =>
    cases Cursor.follows_of_event event with
    | halt _ _ => cases ends
  | token event _ induction =>
    cases Cursor.follows_of_event event with
    | token _ _ _ valid mild =>
      rw [Scan.endsInvalid_push valid] at ends
      exact List.forall_mem_append.mpr ⟨mild, induction proper ends⟩
  | pass event _ induction =>
    cases Cursor.follows_of_event event with
    | pass _ mild => exact List.forall_mem_append.mpr ⟨mild, induction proper ends⟩
  | again _ _ _ induction =>
    refine List.forall_mem_append.mpr ⟨fun error member => ?_, induction proper ends⟩
    cases List.mem_singleton.mp member
    rfl
  | @define cursor after macros pos name content bodyStart body scan event fresh inside
      following mildInside mildBehind =>
    have grows : (body.macros.insert name body.body).bodies <+: scan.macros.bodies :=
      following.macros_grow
    have inserted : body.macros.bodies <+: (body.macros.insert name body.body).bodies :=
      body.macros.prefix_insert name body.body
    have readToEnd : body.endsInvalid = false := by
      cases known : body.macros.contains name with
      | true =>
        cases Cursor.follows_of_event event with
        | define _ isContent _ _ =>
          refine inside.endsInvalid_oneLine isContent.oneLine fun same => ?_
          rw [same, fresh] at known
          cases known
      | false =>
        refine Scan.endsInvalid_of_body (proper (name, body.body) (grows.subset ?_) fresh)
        simp [MacroTable.insert, known]
    refine List.forall_mem_append.mpr ⟨mildInside ?_ readToEnd, mildBehind ?_ ends⟩
    · exact fun entry member => proper entry ((inserted.trans grows).subset member)
    · intro entry member unknown
      refine proper entry member (Bool.eq_false_iff.mpr fun known => ?_)
      obtain ⟨tokens, known⟩ := Option.isSome_iff_exists.mp known
      have still := MacroTable.get?_of_prefix (inside.macros_grow.trans inserted) known
      rw [MacroTable.contains, still] at unknown
      cases unknown

/-- A text is halted exactly if its last token is no token, as long as the bodies of the
macros that it defines are of proper tokens. -/
theorem scan_isHalted_eq (target : Target) (macros : MacroTable) (text : String)
    (proper : AddsProper macros (scan target macros text).macros) :
    (scan target macros text).isHalted = (scan target macros text).endsInvalid := by
  have scans : Scans target ⟨text.toList, 0⟩ macros (scan target macros text) :=
    scanFrom_scans target (Nat.lt_succ_self _) macros
  cases ends : (scan target macros text).endsInvalid with
  | true => exact scans.isHalted_of_endsInvalid ends
  | false =>
    have mild := scans.mild proper ends
    rw [Scan.isHalted]
    cases last : (scan target macros text).errors.getLast? with
    | none => rfl
    | some error => exact mild error (List.mem_of_getLast? last)

theorem macroThenFault_isHalted :
    AddsProper {} (scan default {} "#macro A b\nx @ /*").macros ∧
      (scan default {} "#macro A b\nx @ /*").isHalted =
        (scan default {} "#macro A b\nx @ /*").endsInvalid := by
  have proper : AddsProper {} (scan default {} "#macro A b\nx @ /*").macros := by
    unfold AddsProper
    decide +kernel
  exact ⟨proper, scan_isHalted_eq default {} "#macro A b\nx @ /*" proper⟩

/-- A fault in the body of a macro is the last error of a text that is read to its end. -/
theorem faultyBody_isHalted :
    (scan default {} "#macro A @\nx").isHalted = true ∧
      (scan default {} "#macro A @\nx").endsInvalid = false := by
  decide +kernel

end GameScript.Token
