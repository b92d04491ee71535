import GameScript.Outline.Role
import GameScript.Proofs.Number.Whole
import GameScript.Token.Naming

/-! Roles change the spelling of numbers and nothing else: a literal becomes a name that
reads as its value. -/

namespace GameScript

open Builtin Number Token

theorem keys_putPair {κ α : Type} [DecidableEq κ] (key : κ) (value : α)
    (pairs : List (κ × α)) : (putPair key value pairs).map (·.1) =
      if key ∈ pairs.map (·.1) then pairs.map (·.1) else pairs.map (·.1) ++ [key] := by
  induction pairs with
  | nil => rfl
  | cons pair rest induction => grind [putPair]

theorem lookup_of_mem {κ α : Type} [DecidableEq κ] {pairs : List (κ × α)}
    (distinct : (pairs.map (·.1)).Nodup) {pair : κ × α} (inside : pair ∈ pairs) :
    pairs.lookup pair.1 = some pair.2 := by
  induction pairs with
  | nil => cases inside
  | cons first rest induction =>
    obtain ⟨key, value⟩ := first
    rw [List.lookup_cons]
    grind

namespace AssetTable

/-- The table that assets were put into one after another. -/
def ofList (named : List (String × Asset)) : AssetTable :=
  named.foldl (fun table pair => table.insert pair.1 pair.2) {}

theorem ofList_distinct (named : List (String × Asset)) :
    ((ofList named).entries.map (·.1)).Nodup := by
  suffices grown : ∀ table : AssetTable, (table.entries.map (·.1)).Nodup →
      ((named.foldl (fun table pair => table.insert pair.1 pair.2) table).entries.map
        (·.1)).Nodup from grown {} List.nodup_nil
  induction named with
  | nil => exact fun _ distinct => distinct
  | cons pair rest induction =>
    intro table distinct
    refine induction _ ?_
    change ((putPair pair.1 pair.2 table.entries).map (·.1)).Nodup
    rw [keys_putPair]
    split
    case isTrue => exact distinct
    case isFalse absent => exact List.nodup_append.mpr ⟨distinct, by simp, by grind⟩

theorem get?_of_nameOf? {named : List (String × Asset)} {asset : Asset} {name : String}
    (found : (ofList named).nameOf? asset = some name) :
    (ofList named).get? name = some asset := by
  obtain ⟨pair, first, rfl⟩ := Option.map_eq_some_iff.mp found
  have same : pair.2 = asset := by simpa using List.find?_some first
  rw [get?, lookup_of_mem (ofList_distinct named) (List.mem_of_find?_eq_some first), same]

end AssetTable

namespace Builtin

theorem ofTarget_constants (target : Target) :
    (Registry.ofTarget target).constants = Registry.languageConstants ++
      Constants.allTables.flatten.map (fun entry => (entry.1, Double.ofInt entry.2)) := by
  unfold Registry.ofTarget
  split <;> rfl

theorem constants_distinct (target : Target) :
    ((Registry.ofTarget target).constants.map (·.1)).Nodup := by
  rw [ofTarget_constants, List.map_append, List.map_map]
  change (Registry.languageConstants.map (·.1) ++
    Constants.allTables.flatten.map (·.1)).Nodup
  decide +kernel

theorem constant?_of_nameOf? (target : Target) {table : List (String × Int)}
    (known : table ∈ Constants.allTables) {value : Int} {name : String}
    (found : Constants.nameOf? table value = some name) :
    (Registry.ofTarget target).constant? name = some (Double.ofInt value) := by
  obtain ⟨entry, first, rfl⟩ := Option.map_eq_some_iff.mp found
  have same : entry.2 = value := by simpa using List.find?_some first
  have inside :
      (entry.1, Double.ofInt entry.2) ∈ (Registry.ofTarget target).constants := by
    rw [ofTarget_constants]
    exact List.mem_append_right _ (List.mem_map_of_mem
      (List.mem_flatten_of_mem known (List.mem_of_find?_eq_some first)))
  rw [Registry.constant?, ← same]
  exact lookup_of_mem (constants_distinct target) inside

theorem constant?_of_mem (target : Target) {pair : String × Double}
    (inside : pair ∈ Registry.languageConstants) :
    (Registry.ofTarget target).constant? pair.1 = some pair.2 := by
  refine lookup_of_mem (constants_distinct target) ?_
  rw [ofTarget_constants]
  exact List.mem_append_left _ inside

end Builtin

namespace Outline

inductive WholeNumber : Node → Int → Prop
  | int16 (value : Int16) (step : StepMark) : WholeNumber (.int16 value step) value.toInt
  | int32 (value : Int32) : WholeNumber (.int32 value) value.toInt
  | int64 (value : Int64) : WholeNumber (.int64 value) value.toInt
  | double {number : Double} {value : Int} (whole : number.toInt? = some value) :
      WholeNumber (.double number) value

/-- Texts that stand for a whole number: a name that reads as a constant with exactly this
value, or the code of a character. -/
inductive StandsFor (sources : NameSources) : String → Int → Prop
  | name {name : String} {value : Int} (constant : Constant)
      (read : sources.lexeme name false = .constant constant)
      (same : constant.value = .number (Double.ofInt value))
      (exactly : (Double.ofInt value).toInt? = some value) : StandsFor sources name value
  | key (c : Char) (plain : c.isUpper ∨ c.isDigit) :
      StandsFor sources ("ord(\"" ++ c.toString ++ "\")") c.toNat

theorem wholeNumber_of_integer? {node : Node} {value : Int}
    (found : integer? node = some value) :
    WholeNumber node value ∧ (Double.ofInt value).toInt? = some value := by
  suffices part : WholeNumber node value ∧ value.natAbs ≤ 2147483648 from
    ⟨part.1, Double.toInt?_ofInt_of_natAbs (by omega)⟩
  cases node with
  | int16 word step =>
    cases found
    have := word.toInt_lt
    have := word.le_toInt
    exact ⟨.int16 word step, by omega⟩
  | int32 word =>
    cases found
    have := word.toInt_lt
    have := word.le_toInt
    exact ⟨.int32 word, by omega⟩
  | int64 word =>
    rw [integer?, Option.ite_none_right_eq_some] at found
    obtain ⟨fits, same⟩ := found
    cases same
    simp only [Bool.and_eq_true, decide_eq_true_eq, Int64.le_iff_toInt_le] at fits
    exact ⟨.int64 word, by grind⟩
  | double number =>
    obtain ⟨whole, read, fits⟩ := Option.bind_eq_some_iff.mp found
    rw [Option.ite_none_right_eq_some] at fits
    obtain ⟨fits, same⟩ := fits
    cases same
    exact ⟨.double read, by omega⟩
  | _ => cases found

/-- What the names of a text stand for where some assets are known. -/
def sourcesOf (target : Target) (macros : MacroTable) (named : List (String × Asset)) :
    NameSources where
  target := target
  registry := Registry.ofTarget target
  macros := macros
  assets := AssetTable.ofList named

def NamedApart (target : Target) (named : List (String × Asset)) : Prop :=
  ∀ name, ((Registry.ofTarget target).constant? name).isSome →
    (AssetTable.ofList named).get? name = none

section

variable {target : Target} {macros : MacroTable} {named : List (String × Asset)}
  {value : Int} {name : String}

theorem standsFor_asset {kind : AssetKind}
    (found : (AssetTable.ofList named).nameOf? ⟨kind, value⟩ = some name)
    (exactly : (Double.ofInt value).toInt? = some value) :
    StandsFor (sourcesOf target macros named) name value := by
  refine .name ⟨.number (Double.ofInt value), some name, false⟩ ?_ rfl exactly
  simp [NameSources.lexeme, sourcesOf, AssetTable.get?_of_nameOf? found]

theorem standsFor_constant (apart : NamedApart target named)
    (found : (Registry.ofTarget target).constant? name = some (Double.ofInt value))
    (exactly : (Double.ofInt value).toInt? = some value) :
    StandsFor (sourcesOf target macros named) name value := by
  refine .name ⟨.number (Double.ofInt value), some name,
    target.hasFunctions && (name == "true" || name == "false")⟩ ?_ rfl exactly
  simp [NameSources.lexeme, sourcesOf, apart name (by simp [found]), found]

theorem standsFor_characterKey {sources : NameSources}
    (found : Role.characterKey? value = some name) : StandsFor sources name value := by
  rw [Role.characterKey?, Option.ite_none_right_eq_some] at found
  obtain ⟨fits, found⟩ := found
  rw [Option.ite_none_right_eq_some] at found
  obtain ⟨plain, same⟩ := found
  cases same
  have code : ((Char.ofNat value.toNat).toNat : Int) = value := by
    simp only [Bool.and_eq_true, decide_eq_true_eq] at fits
    have valid : value.toNat.isValidChar := Or.inl (by omega)
    rw [Char.ofNat, dif_pos valid]
    exact Int.toNat_of_nonneg fits.1
  have key : StandsFor sources _ _ := .key (Char.ofNat value.toNat) (by simpa using plain)
  rwa [code] at key

/-- A role never gives a number the name of another one. -/
theorem standsFor_of_spelling? (apart : NamedApart target named) {role : Role}
    (exactly : (Double.ofInt value).toInt? = some value)
    (found : role.spelling? value (AssetTable.ofList named) = some name) :
    StandsFor (sourcesOf target macros named) name value := by
  have table {table : List (String × Int)} (known : table ∈ Constants.allTables)
      (found : Constants.nameOf? table value = some name) :
      StandsFor (sourcesOf target macros named) name value :=
    standsFor_constant apart (constant?_of_nameOf? target known found) exactly
  have language (inside : (name, Double.ofInt value) ∈ Registry.languageConstants) :
      StandsFor (sourcesOf target macros named) name value :=
    standsFor_constant apart (constant?_of_mem target inside) exactly
  cases role with
  | none => cases found
  | boolean =>
    simp only [Role.spelling?] at found
    split at found
    case isTrue zero =>
      cases found
      exact language (by rw [zero]; simp [Registry.languageConstants])
    case isFalse =>
      rw [Option.ite_none_right_eq_some] at found
      obtain ⟨one, same⟩ := found
      cases same
      exact language (by rw [one]; simp [Registry.languageConstants])
  | keyboard =>
    simp only [Role.spelling?] at found
    split at found
    case h_1 known =>
      cases found
      exact table (by simp [Constants.allTables]) known
    case h_2 => exact standsFor_characterKey found
  | color | pathEndAction | gamepad | osType =>
    exact table (by simp [Constants.allTables]) found
  | object | sprite | font | room | sound | path => exact standsFor_asset found exactly

end

/-- The node is kept, or is a literal whose value the new text stands for. -/
inductive Node.Respelled (sources : NameSources) (node : Node) : Node → Prop
  | kept : node.Respelled sources node
  | named {value : Int} {name : String} (whole : WholeNumber node value)
      (stands : StandsFor sources name value) : node.Respelled sources (.constant name)

theorem Node.Respelled.trans {sources : NameSources} {node middle last : Node}
    (first : node.Respelled sources middle) (second : middle.Respelled sources last) :
    node.Respelled sources last := by
  cases second with
  | kept => exact first
  | named whole stands =>
    -- A text is no literal, so a node is spelled once.
    cases first with
    | kept => exact .named whole stands
    | named => cases whole

theorem Node.Respelled.eq_of_not_whole {sources : NameSources} {node after : Node}
    (respelled : node.Respelled sources after) (other : ∀ value, ¬WholeNumber node value) :
    after = node := by
  cases respelled with
  | kept => rfl
  | named whole => exact absurd whole (other _)

/-- The same nodes, some of them spelled in another way. -/
structure Arena.Respelled (sources : NameSources) (arena after : Arena) : Prop where
  size : after.size = arena.size
  node (id : NodeId) : (arena.node id).Respelled sources (after.node id)

namespace Arena.Respelled

variable {sources : NameSources}

theorem refl (arena : Arena) : arena.Respelled sources arena := ⟨rfl, fun _ => .kept⟩

theorem trans {arena middle last : Arena} (first : arena.Respelled sources middle)
    (second : middle.Respelled sources last) : arena.Respelled sources last :=
  ⟨second.size.trans first.size, fun id => (first.node id).trans (second.node id)⟩

theorem replace {arena : Arena} {id : NodeId} {node : Node}
    (respelled : (arena.node id).Respelled sources node) :
    arena.Respelled sources (arena.replace id node) := by
  refine ⟨Array.size_setIfInBounds, fun other => ?_⟩
  by_cases same : other = id ∧ id < arena.size
  · obtain ⟨rfl, inside⟩ := same
    have read : (arena.replace other node).node other = node := by
      simp [Arena.replace, Arena.node, inside]
    rwa [read]
  · have read : (arena.replace id node).node other = arena.node other := by
      simp only [Arena.replace, Arena.node, Array.getD_eq_getD_getElem?,
        Array.getElem?_setIfInBounds]
      grind
    rw [read]
    exact .kept

theorem foldl {items : List α} {step : Arena → α → Arena}
    (single : ∀ (arena : Arena) item, arena.Respelled sources (step arena item))
    (arena : Arena) :
    arena.Respelled sources (items.foldl step arena) := by
  induction items generalizing arena with
  | nil => exact refl arena
  | cons item rest induction => exact (single arena item).trans (induction _)

theorem walk {node : α → NodeId} {enter : Arena → α → Arena × List α}
    (single : ∀ (arena : Arena) item, arena.Respelled sources (enter arena item).1)
    (fuel : Nat) (waiting : List α) (met : List NodeId) (arena : Arena) :
    arena.Respelled sources (Outline.walk node enter fuel waiting met arena).2 := by
  fun_induction Outline.walk node enter fuel waiting met arena with
  | case1 | case2 => exact refl _
  | case3 _ _ _ _ _ _ induction => exact induction
  | case4 _ item _ _ arena _ _ _ entered induction =>
    have first := single arena item
    rw [entered] at first
    exact first.trans induction

end Arena.Respelled

section

variable {target : Target} {named : List (String × Asset)}
  (apart : NamedApart target named) (macros : MacroTable)

include apart

theorem spellAs_respells (role : Role) (fuel : Nat) (arena : Arena) (id : NodeId) :
    arena.Respelled (sourcesOf target macros named)
      (spellAs role (AssetTable.ofList named) fuel arena id) := by
  induction fuel generalizing arena id with
  | zero => exact .refl arena
  | succ fuel induction =>
    rw [spellAs]
    split
    case h_1 => exact (induction arena _).trans (induction _ _)
    case h_2 =>
      split
      case h_1 name found =>
        obtain ⟨value, integer, spelled⟩ := Option.bind_eq_some_iff.mp found
        obtain ⟨whole, exactly⟩ := wholeNumber_of_integer? integer
        exact .replace (.named whole (standsFor_of_spelling? apart exactly spelled))
      case h_2 => exact .refl arena

theorem spellBelow_respells (layers : List RuleSet) (function : Option String)
    (arena : Arena) (id : NodeId) :
    arena.Respelled (sourcesOf target macros named)
      (spellBelow layers (AssetTable.ofList named) function arena id) := by
  have single (role : Role) (arena : Arena) (id : NodeId) :=
    spellAs_respells apart macros role (arena.size + 1) arena id
  unfold spellBelow
  split
  case h_1 =>
    split
    case h_1 =>
      refine .foldl (fun arena item => ?_) arena
      exact single item.2 arena item.1
    case h_2 => exact .refl arena
  case h_4 =>
    split
    case h_1 role _ =>
      refine .foldl (fun arena item => ?_) arena
      split
      case h_1 label _ => exact single role arena label
      case h_2 => exact .refl arena
    case h_2 => exact .refl arena
  all_goals
    repeat' split
    all_goals first | exact single _ _ _ | exact .refl arena

end

/-- Roles spell some literals by names of their values; everything else stays. -/
theorem spell_changes_spelling_only {target : Target} {named : List (String × Asset)}
    (apart : NamedApart target named) (macros : MacroTable) (rules : Rules)
    (entry : String) (outline : Outline) :
    let after := outline.spell rules entry (AssetTable.ofList named)
    after.root = outline.root ∧ after.preamble = outline.preamble ∧
      after.functions = outline.functions ∧
      outline.nodes.Respelled (sourcesOf target macros named) after.nodes ∧
      ∀ id, (∀ value, ¬WholeNumber (outline.nodes.node id) value) →
        after.nodes.node id = outline.nodes.node id := by
  intro after
  have respelled : outline.nodes.Respelled (sourcesOf target macros named) after.nodes :=
    Arena.Respelled.walk (fun arena item =>
      spellBelow_respells apart macros (rules.layers entry) item.2 arena item.1) _ _ _ _
  exact ⟨rfl, rfl, rfl, respelled, fun id => (respelled.node id).eq_of_not_whole⟩

/-- `draw_sprite(5, 5)` and `keyboard_check(65)`. -/
def twoCalls : Outline where
  nodes := #[.block [1, 4], .call "draw_sprite" [2, 3], .int16 5 .none, .int16 5 .none,
    .call "keyboard_check" [5], .double (Double.ofInt 65)]
  root := 0

/-- Only the first argument of the first call is a sprite. -/
theorem twoCalls_respelled :
    let named : List (String × Asset) := [("spr_hero", ⟨.sprite, 5⟩)]
    let after := twoCalls.spell .builtin "gml_Script_hero" (AssetTable.ofList named)
    NamedApart (.ofGeneration .gms2) named ∧
      after.nodes = #[.block [1, 4], .call "draw_sprite" [2, 3], .constant "spr_hero",
        .int16 5 .none, .call "keyboard_check" [5], .constant "ord(\"A\")"] ∧
      twoCalls.nodes.Respelled (sourcesOf (.ofGeneration .gms2) {} named) after.nodes := by
  intro named after
  have apart : NamedApart (.ofGeneration .gms2) named := by
    intro name known
    by_cases same : name = "spr_hero"
    · subst same
      revert known
      decide +kernel
    · simp [named, AssetTable.ofList, AssetTable.insert, putPair, AssetTable.get?, same]
  exact ⟨apart, by decide +kernel, (spell_changes_spelling_only apart {} _ _ _).2.2.2.1⟩

end Outline

end GameScript
