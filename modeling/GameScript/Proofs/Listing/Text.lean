import GameScript.Listing
import GameScript.Token.Scanner

/-! Parts of listings can be told apart.

Each lemma says that a part is known from the text that begins with it, or that two parts
of different kinds never begin alike. -/

namespace GameScript.Listing

open Builtin Bytecode Number Token

variable {c : Char}

theorem cut_unique (part : Char → Prop) {word word' rest rest' : List Char} {c' : Char}
    (inside : ∀ x ∈ word, part x) (inside' : ∀ x ∈ word', part x) (stops : ¬part c)
    (stops' : ¬part c') (same : word ++ c :: rest = word' ++ c' :: rest') :
    word = word' ∧ c = c' ∧ rest = rest' := by
  induction word generalizing word' with
  | nil =>
    cases word' with
    | nil => simpa using same
    | cons x word' =>
      obtain ⟨rfl, -⟩ := List.cons.inj same
      exact absurd (inside' c List.mem_cons_self) stops
  | cons x word induction =>
    cases word' with
    | nil =>
      obtain ⟨rfl, -⟩ := List.cons.inj same
      exact absurd (inside x List.mem_cons_self) stops'
    | cons x' word' =>
      obtain ⟨rfl, following⟩ := List.cons.inj same
      obtain ⟨rfl, rfl, rfl⟩ := induction (List.forall_mem_cons.mp inside).2
        (List.forall_mem_cons.mp inside').2 following
      exact ⟨rfl, rfl, rfl⟩

theorem cut_at_unique {word word' rest rest' : List Char} (absent : c ∉ word)
    (absent' : c ∉ word') (same : word ++ c :: rest = word' ++ c :: rest') :
    word = word' ∧ rest = rest' := by
  have apart {w : List Char} (absent : c ∉ w) : ∀ x ∈ w, x ≠ c := fun x member isC =>
    absent (isC ▸ member)
  obtain ⟨words, -, rests⟩ := cut_unique (· ≠ c) (apart absent) (apart absent')
    (fun differs => differs rfl) (fun differs => differs rfl) same
  exact ⟨words, rests⟩

theorem cut_last_unique {word word' rest rest' : List Char} (absent : c ∉ rest)
    (absent' : c ∉ rest') (same : word ++ c :: rest = word' ++ c :: rest') :
    word = word' ∧ rest = rest' := by
  have reversed :
      rest.reverse ++ c :: word.reverse = rest'.reverse ++ c :: word'.reverse := by
    simpa using congrArg List.reverse same
  obtain ⟨rests, words⟩ :=
    cut_at_unique (by simpa using absent) (by simpa using absent') reversed
  exact ⟨List.reverse_inj.mp words, List.reverse_inj.mp rests⟩

@[simp] theorem toString_string (text : String) : toString text = text := rfl

theorem toDigits_inj {n m : Nat} (same : Nat.toDigits 10 n = Nat.toDigits 10 m) :
    n = m := by
  rw [← Nat.ofDigitChars_ten_toDigits (n := n), same, Nat.ofDigitChars_ten_toDigits]

theorem isDigit_of_mem_toDigits {n : Nat} (member : c ∈ Nat.toDigits 10 n) :
    c.isDigit = true :=
  Nat.isDigit_of_mem_toDigits (by decide) (by decide) member

theorem notMem_toDigits (n : Nat) (noDigit : c.isDigit = false) :
    c ∉ Nat.toDigits 10 n := fun member => by
  simp [isDigit_of_mem_toDigits member] at noDigit

def beginsNumber (c : Char) : Bool := c == '-' || c.isDigit

theorem toList_repr_int (n : Int) :
    n.repr.toList =
      if 0 ≤ n then Nat.toDigits 10 n.toNat else '-' :: Nat.toDigits 10 (-n).toNat := by
  rw [Int.repr_eq_if]
  split <;> simp

theorem beginsNumber_of_mem_repr {n : Int} (member : c ∈ n.repr.toList) :
    beginsNumber c = true := by
  rw [toList_repr_int] at member
  split at member
  · simp [beginsNumber, isDigit_of_mem_toDigits member]
  · rcases List.mem_cons.mp member with rfl | digits
    · rfl
    · simp [beginsNumber, isDigit_of_mem_toDigits digits]

theorem toList_repr_eq_cons (n : Int) :
    ∃ c rest, n.repr.toList = c :: rest ∧ beginsNumber c = true := by
  have nonempty : n.repr.toList ≠ [] := by
    rw [toList_repr_int]
    split
    · exact Nat.toDigits_ne_nil
    · exact List.cons_ne_nil _ _
  obtain ⟨c, rest, spelled⟩ := List.exists_cons_of_ne_nil nonempty
  exact ⟨c, rest, spelled, beginsNumber_of_mem_repr (n := n)
    (spelled ▸ List.mem_cons_self)⟩

theorem repr_int_inj {n m : Int} (same : n.repr = m.repr) : n = m := by
  have spelled := congrArg String.toList same
  have unsigned (k : Nat) (rest : List Char) : Nat.toDigits 10 k ≠ '-' :: rest :=
    fun signed =>
    notMem_toDigits k (c := '-') rfl (signed ▸ List.mem_cons_self)
  rw [toList_repr_int, toList_repr_int] at spelled
  split at spelled <;> split at spelled
  · have values := toDigits_inj spelled
    omega
  · exact absurd spelled (unsigned _ _)
  · exact absurd spelled.symm (unsigned _ _)
  · have values := toDigits_inj (List.cons.inj spelled).2
    omega

theorem write_plain (decimal : Decimal) :
    Layout.plain.write decimal =
      if decimal.digits = 0 then ['0']
      else
        let digits := Nat.toDigits 10 decimal.digits
        let point : Int := digits.length + decimal.exponent
        if point ≤ 0 then '0' :: '.' :: (List.replicate (-point).toNat '0' ++ digits)
        else if digits.length ≤ point.toNat then
          digits ++ List.replicate (point.toNat - digits.length) '0' ++ []
        else digits.take point.toNat ++ '.' :: digits.drop point.toNat := rfl

theorem newline_notMem_render (x : Double) : '\n' ∉ (x.render .plain).toList := by
  have digits (n : Nat) : '\n' ∉ Nat.toDigits 10 n := notMem_toDigits n rfl
  have written (decimal : Decimal) : '\n' ∉ Layout.plain.write decimal := by
    have taken (n m : Nat) : '\n' ∉ (Nat.toDigits 10 n).take m := fun member =>
      digits n (List.mem_of_mem_take member)
    have dropped (n m : Nat) : '\n' ∉ (Nat.toDigits 10 n).drop m := fun member =>
      digits n (List.mem_of_mem_drop member)
    rw [write_plain]
    split
    · decide
    · dsimp only
      split
      · simp [digits]
      · split <;> simp [digits, taken, dropped]
  unfold Double.render renderMagnitude
  split
  · decide
  · dsimp only
    split <;> split <;> simp [written]

def unescape : List Char → List Char
  | '\\' :: c :: rest =>
    let meant := match c with
      | 'n' => '\n'
      | 'r' => '\r'
      | 't' => '\t'
      | 'b' => '\x08'
      | 'f' => '\x0C'
      | 'v' => '\x0B'
      | 'a' => '\x07'
      | c => c
    meant :: unescape rest
  | c :: rest => c :: unescape rest
  | [] => []

theorem unescape_escape (c : Char) (rest : List Char) :
    unescape (escape c ++ rest) = c :: unescape rest := by
  unfold escape
  split
  case h_10 notSlash _ _ _ _ _ _ _ _ =>
    rw [List.singleton_append, unescape]
    exact fun _ _ isSlash => (notSlash isSlash).elim
  all_goals rfl

theorem unescape_flatMap_escape (text : List Char) :
    unescape (text.flatMap escape) = text := by
  induction text with
  | nil => rfl
  | cons c rest induction => rw [List.flatMap_cons, unescape_escape, induction]

theorem sanitize_inj {text other : String} (same : sanitize text = sanitize other) :
    text = other := by
  have escaped := congrArg (unescape ·.toList) same
  exact String.toList_inj.mp (by simpa [sanitize, unescape_flatMap_escape] using escaped)

theorem newline_notMem_sanitize (text : String) : '\n' ∉ (sanitize text).toList := by
  have escaped (c : Char) : '\n' ∉ escape c := by
    unfold escape
    split
    case h_10 notNewline _ _ _ _ _ _ => simpa [eq_comm] using notNewline
    all_goals decide
  simp [sanitize, escaped]

end GameScript.Listing

namespace GameScript.Bytecode

open Listing

/-! Instances and kinds of access. -/

namespace Instance

variable {inst : Instance}

theorem mem_named_of_name? {name : String} (isNamed : inst.name? = some name) :
    (inst, name) ∈ named := by
  rw [name?, List.lookup_eq_some_iff] at isNamed
  obtain ⟨front, back, found, -⟩ := isNamed
  rw [found]
  simp

theorem render_spelled (inst : Instance) :
    (∃ name, (inst, name) ∈ named ∧ inst.render = name) ∨
    inst.render = inst.code.toInt.repr := by
  unfold render
  split
  case h_1 name isNamed => exact .inl ⟨name, mem_named_of_name? isNamed, rfl⟩
  case h_2 => exact .inr rfl

theorem render_inj {other : Instance} (same : inst.render = other.render) :
    inst = other := by
  have apart : ∀ pair ∈ named, ∀ n : Int, pair.2 ≠ n.repr := by
    intro pair member n spelled
    have begins : ∀ pair ∈ named, pair.2.toList.head?.any beginsNumber = false := by decide
    obtain ⟨c, rest, digits, isNumber⟩ := toList_repr_eq_cons n
    have isLetter := begins pair member
    simp [spelled, digits, isNumber] at isLetter
  have unique : ∀ pair ∈ named, ∀ pair' ∈ named, pair.2 = pair'.2 →
      pair.1 = pair'.1 := by decide
  rcases inst.render_spelled with ⟨name, isNamed, spelled⟩ | spelled <;>
    rcases other.render_spelled with ⟨name', isNamed', spelled'⟩ | spelled'
  · exact unique _ isNamed _ isNamed' (by rw [← spelled, same, spelled'])
  · exact absurd (by rw [← spelled, same, spelled']) (apart _ isNamed _)
  · exact absurd (by rw [← spelled', ← same, spelled]) (apart _ isNamed' _)
  · rw [spelled, spelled'] at same
    have codes := Int16.toInt_inj.mp (repr_int_inj same)
    cases inst
    cases other
    exact congrArg Instance.mk codes

def spells (c : Char) : Bool := c.isLower || beginsNumber c

theorem spells_of_mem_render {c : Char} (member : c ∈ inst.render.toList) :
    spells c = true := by
  have letters : ∀ pair ∈ named, pair.2.toList.all spells = true := by decide
  rcases inst.render_spelled with ⟨name, isNamed, spelled⟩ | spelled
  · exact List.all_eq_true.mp (letters _ isNamed) c (spelled ▸ member)
  · rw [spelled] at member
    simp [spells, beginsNumber_of_mem_repr member]

theorem notMem_render (inst : Instance) {c : Char} (noSpelling : spells c = false) :
    c ∉ inst.render.toList := fun member => by
  simp [spells_of_mem_render member] at noSpelling

end Instance

namespace Access

theorem name_inj {access other : Access} (same : access.name = other.name) :
    access = other := by
  revert same
  cases access <;> cases other <;> decide

theorem bracket_notMem_name (access : Access) : ']' ∉ access.name.toList := by
  cases access <;> decide

end Access

end GameScript.Bytecode

namespace GameScript.Listing

open Builtin Bytecode Number Token

/-- A name as source texts spell it. -/
def isIdentifier (name : String) : Bool :=
  match name.toList with
  | [] => false
  | c :: rest => isNameStart c && rest.all isNamePart

def runtimeNames : List String :=
  [Internal.nullObject, Internal.copyStatic, Internal.newArray, Internal.newObject,
    Internal.getInstance, Internal.this, Internal.other, Internal.global, Internal.tryHook,
    Internal.tryUnhook, Internal.finishCatch, Internal.finishFinally, Internal.throw,
    Internal.method, Internal.returnTemp]

/-- Names in the code of an entry: those of source texts, those of the runtime, and those
of the functions and structs of the entry that have no name in its source text. -/
inductive IsName (entry : String) : String → Prop where
  | identifier {name : String} (spelled : isIdentifier name = true) : IsName entry name
  | runtime {name : String} (isRuntime : name ∈ runtimeNames) : IsName entry name
  | anonymous (count : Nat) : IsName entry s!"anon_{count}_{entry}"
  | struct (count : Nat) : IsName entry s!"___struct___{count}_{entry}"

def beginsName (c : Char) : Bool := c != '[' && !beginsNumber c

/-- A name stays on its line, begins like a name, and is not an instance with a name after
it. -/
structure Legible (name : String) : Prop where
  unbroken : '\n' ∉ name.toList
  begins : name.toList.head?.any beginsName = true
  dotted : ∀ word rest, name.toList = word ++ '.' :: rest →
    ∃ c ∈ word, Instance.spells c = false

variable {name : String}

theorem Legible.of_undotted (unbroken : '\n' ∉ name.toList)
    (begins : name.toList.head?.any beginsName = true) (undotted : '.' ∉ name.toList) :
    Legible name :=
  ⟨unbroken, begins, fun word rest cut => absurd (by simp [cut]) undotted⟩

/-- A name that begins with a word in which a low line stands, as in no instance. -/
theorem Legible.of_word (word : List Char) {rest : List Char}
    (spelled : name.toList = word ++ rest) (unbroken : '\n' ∉ word ++ rest)
    (begins : word.head?.any beginsName = true) (undotted : '.' ∉ word)
    (marked : '_' ∈ word) : Legible name where
  unbroken := spelled ▸ unbroken
  begins := by
    rw [spelled]
    cases word with
    | nil => cases begins
    | cons c word => exact begins
  dotted := by
    intro front back cut
    refine ⟨'_', ?_, rfl⟩
    rw [spelled] at cut
    obtain ⟨more, rfl, -⟩ | ⟨more, rfl, rests⟩ := List.append_eq_append_iff.mp cut
    · exact List.mem_append_left _ marked
    · cases more with
      | nil => simpa using marked
      | cons d more =>
        obtain ⟨rfl, -⟩ := List.cons.inj rests
        exact absurd (by simp) undotted

theorem beginsName_of_isNameStart {c : Char} (starts : isNameStart c = true) :
    beginsName c = true := by
  have notBracket : c ≠ '[' := by rintro rfl; exact absurd starts (by decide)
  have notMinus : c ≠ '-' := by rintro rfl; exact absurd starts (by decide)
  have noDigit : c.isDigit = false := by
    simp only [isNameStart, Bool.or_eq_true, Bool.and_eq_true, decide_eq_true_eq,
      beq_iff_eq, Char.le_def, UInt32.le_iff_toNat_le] at starts
    simp only [Char.isDigit, Bool.and_eq_false_iff, decide_eq_false_iff_not,
      UInt32.le_iff_toNat_le]
    rcases starts with (⟨low, -⟩ | ⟨low, -⟩) | rfl
    · right; simp at low ⊢; omega
    · right; simp at low ⊢; omega
    · right; decide
  simp [beginsName, beginsNumber, notBracket, notMinus, noDigit]

theorem Legible.of_identifier (spelled : isIdentifier name = true) : Legible name := by
  have parts : ∀ c ∈ name.toList, isNamePart c = true := by
    unfold isIdentifier at spelled
    split at spelled
    case h_1 => cases spelled
    case h_2 c rest cut =>
      rw [Bool.and_eq_true, List.all_eq_true] at spelled
      rw [cut, List.forall_mem_cons]
      exact ⟨by simp [isNamePart, spelled.1], spelled.2⟩
  have apart {c : Char} (noPart : isNamePart c = false) :
      c ∉ name.toList := fun member => by
    simp [parts c member] at noPart
  refine of_undotted (apart rfl) ?_ (apart rfl)
  unfold isIdentifier at spelled
  split at spelled
  case h_1 => cases spelled
  case h_2 c rest cut =>
    rw [Bool.and_eq_true] at spelled
    rw [cut]
    exact beginsName_of_isNameStart spelled.1

theorem IsName.legible {entry : String} (isName : IsName entry name)
    (unbroken : '\n' ∉ entry.toList) : Legible name := by
  have digits (count : Nat) : '\n' ∉ Nat.toDigits 10 count := notMem_toDigits count rfl
  cases isName with
  | identifier spelled => exact .of_identifier spelled
  | runtime isRuntime =>
    have all : ∀ name ∈ runtimeNames, '\n' ∉ name.toList ∧
        name.toList.head?.any beginsName = true ∧ '.' ∉ name.toList := by
      decide
    obtain ⟨unbroken, begins, undotted⟩ := all _ isRuntime
    exact .of_undotted unbroken begins undotted
  | anonymous count =>
    have spelled : s!"anon_{count}_{entry}".toList =
        "anon_".toList ++ (Nat.toDigits 10 count ++ '_' :: entry.toList) := by
      simp
    exact .of_word _ spelled (by simp [unbroken, digits]) (by decide)
      (by decide) (by decide)
  | struct count =>
    have spelled : s!"___struct___{count}_{entry}".toList =
        "___struct___".toList ++ (Nat.toDigits 10 count ++ '_' :: entry.toList) := by
      simp
    exact .of_word _ spelled (by simp [unbroken, digits]) (by decide)
      (by decide) (by decide)

def placeShown (access : Access) (stored : StoredVariable) : String :=
  if access = .normal then stored.name
  else s!"[{access.name}]{stored.scope.render}.{stored.name}"

def variableShown (owner : Instance) (access : Access) (stored : StoredVariable) :
    String :=
  (if owner = .unspecified then "" else owner.render ++ ".") ++ placeShown access stored

theorem placeShown_ne_dotted {access : Access} {stored : StoredVariable}
    (legible : Legible stored.name) (inst : Instance) (rest : List Char) :
    (placeShown access stored).toList ≠ inst.render.toList ++ '.' :: rest := by
  intro cut
  unfold placeShown at cut
  split at cut
  case isTrue =>
    obtain ⟨c, member, noSpelling⟩ := legible.dotted _ _ cut
    exact inst.notMem_render noSpelling member
  case isFalse =>
    have bracket : '[' ∉ inst.render.toList := inst.notMem_render rfl
    cases spelled : inst.render.toList with
    | nil => simp [spelled] at cut
    | cons c word =>
      rw [spelled] at cut bracket
      have first : '[' = c := by simpa using congrArg List.head? cut
      exact bracket (first ▸ List.mem_cons_self)

section Variables

variable {owner owner' : Instance} {access access' : Access}
  {stored stored' : StoredVariable}
  (legible : Legible stored.name) (legible' : Legible stored'.name)

include legible legible'

/-- The variable is known, but for the scope that a plain one is stored under. -/
theorem placeShown_unique (same : placeShown access stored = placeShown access' stored') :
    access = access' ∧ stored.name = stored'.name ∧
      (access ≠ .normal → stored.scope = stored'.scope) := by
  have noBracket {name : String} (legible : Legible name) (rest : List Char) :
      name.toList ≠ '[' :: rest := fun bracket => by
    have begins := legible.begins
    rw [bracket] at begins
    cases begins
  unfold placeShown at same
  split at same <;> split at same
  case isTrue.isTrue normal normal' =>
    exact ⟨normal.trans normal'.symm, same, fun other => absurd normal other⟩
  case isTrue.isFalse =>
    exact absurd (congrArg String.toList same) (by simpa using noBracket legible _)
  case isFalse.isTrue =>
    exact absurd (congrArg String.toList same.symm) (by simpa using noBracket legible' _)
  case isFalse.isFalse =>
    have spelled : access.name.toList ++ ']' :: (stored.scope.render.toList ++ '.' ::
        stored.name.toList) = access'.name.toList ++ ']' ::
          (stored'.scope.render.toList ++ '.' :: stored'.name.toList) := by
      simpa using congrArg String.toList same
    obtain ⟨accesses, rests⟩ :=
      cut_at_unique access.bracket_notMem_name access'.bracket_notMem_name spelled
    obtain ⟨scopes, names⟩ := cut_at_unique (Instance.notMem_render _ rfl)
      (Instance.notMem_render _ rfl) rests
    exact ⟨Access.name_inj (String.toList_inj.mp accesses), String.toList_inj.mp names,
      fun _ => Instance.render_inj (String.toList_inj.mp scopes)⟩

theorem variableShown_unique
    (same : variableShown owner access stored = variableShown owner' access' stored') :
    owner = owner' ∧ access = access' ∧ stored.name = stored'.name ∧
      (access ≠ .normal → stored.scope = stored'.scope) := by
  unfold variableShown at same
  split at same <;> split at same
  case isTrue.isTrue here here' =>
    rw [String.empty_append, String.empty_append] at same
    exact ⟨here.trans here'.symm, placeShown_unique legible legible' same⟩
  case isTrue.isFalse =>
    have spelled := congrArg String.toList same
    exact absurd (by simpa using spelled) (placeShown_ne_dotted legible owner' _)
  case isFalse.isTrue =>
    have spelled := congrArg String.toList same.symm
    exact absurd (by simpa using spelled) (placeShown_ne_dotted legible' owner _)
  case isFalse.isFalse =>
    have spelled : owner.render.toList ++ '.' :: (placeShown access stored).toList =
        owner'.render.toList ++ '.' :: (placeShown access' stored').toList := by
      simpa using congrArg String.toList same
    obtain ⟨owners, places⟩ := cut_at_unique (Instance.notMem_render _ rfl)
      (Instance.notMem_render _ rfl) spelled
    exact ⟨Instance.render_inj (String.toList_inj.mp owners),
      placeShown_unique legible legible' (String.toList_inj.mp places)⟩

end Variables

theorem newline_notMem_variableShown {owner : Instance} {access : Access}
    {stored : StoredVariable} (legible : Legible stored.name) :
    '\n' ∉ (variableShown owner access stored).toList := by
  have spelled (inst : Instance) : '\n' ∉ inst.render.toList := inst.notMem_render rfl
  have named : '\n' ∉ access.name.toList := by cases access <;> decide
  unfold variableShown placeShown
  split <;> split <;> simp [legible.unbroken, spelled, named]

/-- A line of a listing, with the block that starts before it. -/
structure Line where
  block : Option Nat
  body : List Char

namespace Line

def heading (block : Option Nat) : List Char :=
  match block with
  | some block => '\n' :: ':' :: '[' :: (Nat.toDigits 10 block ++ [']', '\n'])
  | none => []

def chars (line : Line) : List Char := heading line.block ++ (line.body ++ ['\n'])

def ending : List Char := ['\n', ':', '[', 'e', 'n', 'd', ']']

structure IsWhole (line : Line) : Prop where
  nonempty : line.body ≠ []
  unbroken : '\n' ∉ line.body

variable {line line' : Line} {rest rest' : List Char}

theorem IsWhole.body_ne_newline (whole : line.IsWhole) (rest rest' : List Char) :
    line.body ++ rest ≠ '\n' :: rest' := by
  intro same
  have unbroken := whole.unbroken
  cases spelled : line.body with
  | nil => exact whole.nonempty spelled
  | cons c body =>
    rw [spelled] at same unbroken
    obtain ⟨rfl, -⟩ := List.cons.inj same
    exact unbroken List.mem_cons_self

theorem chars_append_ne_ending (whole : line.IsWhole) : line.chars ++ rest ≠ ending := by
  intro same
  cases isBlock : line.block with
  | none =>
    rw [chars, isBlock, heading, List.nil_append, List.append_assoc] at same
    exact whole.body_ne_newline _ _ same
  | some block =>
    rw [chars, isBlock, heading] at same
    have spelled : Nat.toDigits 10 block ++ [']', '\n'] ++ (line.body ++ ['\n']) ++ rest =
        ['e', 'n', 'd', ']'] :=
      (List.cons.inj (List.cons.inj (List.cons.inj same).2).2).2
    cases digits : Nat.toDigits 10 block with
    | nil => exact Nat.toDigits_ne_nil digits
    | cons c word =>
      rw [digits] at spelled
      obtain ⟨rfl, -⟩ := List.cons.inj spelled
      exact notMem_toDigits block (c := 'e') rfl (digits ▸ List.mem_cons_self)

theorem chars_unique (whole : line.IsWhole) (whole' : line'.IsWhole)
    (same : line.chars ++ rest = line'.chars ++ rest') : line = line' ∧ rest = rest' := by
  obtain ⟨block, body⟩ := line
  obtain ⟨block', body'⟩ := line'
  have bodies (same : body ++ '\n' :: rest = body' ++ '\n' :: rest') :
      body = body' ∧ rest = rest' :=
    cut_at_unique whole.unbroken whole'.unbroken same
  cases block with
  | none =>
    cases block' with
    | none =>
      obtain ⟨rfl, rfl⟩ := bodies (by simpa [chars, heading] using same)
      exact ⟨rfl, rfl⟩
    | some block' =>
      rw [chars, heading, List.nil_append, List.append_assoc] at same
      exact absurd same (whole.body_ne_newline _ _)
  | some block =>
    cases block' with
    | none =>
      symm at same
      rw [chars, heading, List.nil_append, List.append_assoc] at same
      exact absurd same (whole'.body_ne_newline _ _)
    | some block' =>
      have spelled : Nat.toDigits 10 block ++ ']' :: '\n' :: (body ++ '\n' :: rest) =
          Nat.toDigits 10 block' ++ ']' :: '\n' :: (body' ++ '\n' :: rest') := by
        simpa [chars, heading] using same
      obtain ⟨blocks, rests⟩ :=
        cut_at_unique (notMem_toDigits _ rfl) (notMem_toDigits _ rfl) spelled
      obtain rfl := toDigits_inj blocks
      obtain ⟨rfl, rfl⟩ := bodies (List.cons.inj rests).2
      exact ⟨rfl, rfl⟩

theorem lines_unique {lines lines' : List Line} (whole : ∀ line ∈ lines, line.IsWhole)
    (whole' : ∀ line ∈ lines', line.IsWhole)
    (same : lines.flatMap chars ++ ending = lines'.flatMap chars ++ ending) :
    lines = lines' := by
  induction lines generalizing lines' with
  | nil =>
    cases lines' with
    | nil => rfl
    | cons line' lines' =>
      rw [List.flatMap_cons, List.append_assoc] at same
      exact absurd same.symm (chars_append_ne_ending (whole' line' List.mem_cons_self))
  | cons line lines induction =>
    rw [List.flatMap_cons, List.append_assoc] at same
    cases lines' with
    | nil => exact absurd same (chars_append_ne_ending (whole line List.mem_cons_self))
    | cons line' lines' =>
      rw [List.flatMap_cons, List.append_assoc] at same
      rw [List.forall_mem_cons] at whole whole'
      obtain ⟨rfl, following⟩ := chars_unique whole.1 whole'.1 same
      rw [induction whole.2 whole'.2 following]

end Line

end GameScript.Listing
