import GameScript.Builtin.Constants
import GameScript.EntryName
import GameScript.Names
import GameScript.Outline.Walk

/-! Roles of numbers.

A number that is an argument of a known function, is assigned to a known
variable, is compared with one, is a label or is returned has a role, and is
then written by the name of a constant or an asset.  Only its spelling changes. -/

namespace GameScript.Outline

open Builtin Number

inductive Role where
  | none | object | boolean | color | sprite | font | room | keyboard | sound | path
  | pathEndAction | gamepad | osType
deriving DecidableEq, Repr

namespace Role

def all : List Role :=
  [.none, .object, .boolean, .color, .sprite, .font, .room, .keyboard, .sound, .path,
    .pathEndAction, .gamepad, .osType]

def name : Role → String
  | .none => "None"
  | .object => "Object"
  | .boolean => "Boolean"
  | .color => "Color"
  | .sprite => "Sprite"
  | .font => "Font"
  | .room => "Room"
  | .keyboard => "Keyboard"
  | .sound => "Sound"
  | .path => "Path"
  | .pathEndAction => "PathEndAction"
  | .gamepad => "Gamepad"
  | .osType => "OSType"

def ofName? (text : String) : Option Role := all.find? (·.name == text)

def characterKey? (value : Int) : Option String :=
  if 0 ≤ value && value < 256 then
    let c := Char.ofNat value.toNat
    if c.isUpper || c.isDigit then some ("ord(\"" ++ c.toString ++ "\")") else Option.none
  else Option.none

def spelling? (role : Role) (value : Int) (assets : AssetTable) : Option String :=
  let asset (kind : AssetKind) : Option String := assets.nameOf? ⟨kind, value⟩
  match role with
  | .none => Option.none
  | .boolean =>
    if value = 0 then some "false" else if value = 1 then some "true" else Option.none
  | .color => Constants.nameOf? Constants.colors value
  | .keyboard =>
    match Constants.nameOf? Constants.keyboard value with
    | some name => some name
    | Option.none => characterKey? value
  | .pathEndAction => Constants.nameOf? Constants.pathEndActions value
  | .gamepad => Constants.nameOf? Constants.gamepad value
  | .osType => Constants.nameOf? Constants.osTypes value
  | .object => asset .object
  | .sprite => asset .sprite
  | .font => asset .font
  | .room => asset .room
  | .sound => asset .sound
  | .path => asset .path

end Role

inductive RuleLiteral where
  | boolean (value : Bool)
  | number (value : Double)
  /-- A string, or the name of a constant. -/
  | text (value : String)
deriving DecidableEq, Repr

/-- Roles of arguments that hold if an argument is the given literal; without a
condition they always hold. -/
structure Alternative where
  condition : Option (Nat × RuleLiteral)
  roles : List Role
deriving DecidableEq, Repr

/-- What is known of functions and variables. -/
structure RuleSet where
  arguments : List (String × List Role) := []
  /-- Tried before `arguments`, the first that holds. -/
  alternatives : List (String × List Alternative) := []
  returns : List (String × Role) := []
  vars : List (String × Role) := []
deriving DecidableEq, Repr

/-- Rules for all entries, and rules for some entries that come before them. -/
structure Rules where
  base : RuleSet := {}
  /-- By the name of an entry, or by `object: ` and the name of an object. -/
  entries : List (String × RuleSet) := []
deriving DecidableEq, Repr

def putPairs (pairs news : List (String × α)) : List (String × α) :=
  news.foldl (fun pairs (key, value) => putPair key value pairs) pairs

def RuleSet.merge (rules news : RuleSet) : RuleSet where
  arguments := putPairs rules.arguments news.arguments
  alternatives := putPairs rules.alternatives news.alternatives
  returns := putPairs rules.returns news.returns
  vars := putPairs rules.vars news.vars

namespace Rules

def merge (rules news : Rules) : Rules where
  base := rules.base.merge news.base
  entries := news.entries.foldl (fun entries (key, set) =>
    putPair key (((entries.lookup key).getD {}).merge set) entries) rules.entries

def concerns (key entry : String) : Bool :=
  match EntryName.after? "object: " key with
  | some object => EntryName.isOfObject object entry
  | none => key == entry

def layers (rules : Rules) (entry : String) : List RuleSet :=
  (rules.entries.filter fun (key, _) => concerns key entry).map (·.2) ++ [rules.base]

def builtin : Rules where
  base := {
    arguments := [("instance_create", [.none, .none, .object]),
       ("instance_create_depth", [.none, .none, .none, .object]),
       ("instance_create_layer", [.none, .none, .none, .object]),
       ("instance_exists", [.object]), ("instance_number", [.object]),
       ("instance_find", [.object, .none]), ("instance_nearest", [.none, .none, .object]),
       ("instance_furthest", [.none, .none, .object]),
       ("instance_place", [.none, .none, .object]),
       ("instance_position", [.none, .none, .object]),
       ("instance_change", [.object, .boolean]), ("instance_destroy", [.object, .boolean]),
       ("instance_activate_object", [.object]), ("instance_deactivate_object", [.object]),
       ("instance_deactivate_all", [.boolean]), ("place_meeting", [.none, .none, .object]),
       ("position_meeting", [.none, .none, .object]),
       ("collision_point", [.none, .none, .object, .boolean, .boolean]),
       ("collision_line", [.none, .none, .none, .none, .object, .boolean, .boolean]),
       ("collision_rectangle", [.none, .none, .none, .none, .object, .boolean, .boolean]),
       ("collision_circle", [.none, .none, .none, .object, .boolean, .boolean]),
       ("distance_to_object", [.object]), ("application_surface_enable", [.boolean]),
       ("application_surface_draw_enable", [.boolean]), ("draw_set_color", [.color]),
       ("draw_set_colour", [.color]), ("draw_set_font", [.font]),
       ("draw_sprite", [.sprite]),
       ("draw_sprite_ext", [.sprite, .none, .none, .none, .none, .none, .none, .color]),
       ("draw_sprite_stretched", [.sprite]), ("draw_sprite_tiled", [.sprite]),
       ("draw_text_color", [.none, .none, .none, .color, .color, .color, .color]),
       ("draw_text_colour", [.none, .none, .none, .color, .color, .color, .color]),
       ("draw_rectangle", [.none, .none, .none, .none, .boolean]),
       ("merge_color", [.color, .color, .none]), ("merge_colour", [.color, .color, .none]),
       ("room_goto", [.room]), ("keyboard_check", [.keyboard]),
       ("keyboard_check_pressed", [.keyboard]), ("keyboard_check_released", [.keyboard]),
       ("keyboard_check_direct", [.keyboard]), ("keyboard_clear", [.keyboard]),
       ("keyboard_key_press", [.keyboard]), ("keyboard_key_release", [.keyboard]),
       ("keyboard_set_map", [.keyboard, .keyboard]), ("sprite_exists", [.sprite]),
       ("sprite_get_name", [.sprite]), ("sprite_get_number", [.sprite]),
       ("sprite_get_width", [.sprite]), ("sprite_get_height", [.sprite]),
       ("sprite_set_offset", [.sprite, .none, .none]), ("audio_exists", [.sound]),
       ("audio_play_sound", [.sound, .none, .boolean]), ("audio_stop_sound", [.sound]),
       ("audio_pause_sound", [.sound]), ("audio_resume_sound", [.sound]),
       ("audio_is_playing", [.sound]), ("audio_sound_gain", [.sound, .none, .none]),
       ("audio_sound_pitch", [.sound, .none]),
       ("path_start", [.path, .none, .pathEndAction, .boolean]), ("path_exists", [.path]),
       ("path_get_length", [.path]), ("path_get_x", [.path, .none]),
       ("path_get_y", [.path, .none]), ("gamepad_axis_value", [.none, .gamepad]),
       ("gamepad_button_check", [.none, .gamepad]),
       ("gamepad_button_check_pressed", [.none, .gamepad]),
       ("gamepad_button_check_released", [.none, .gamepad]),
       ("layer_sprite_change", [.none, .sprite])]
    returns :=
      [("instance_exists", .boolean), ("draw_get_color", .color),
        ("draw_get_colour", .color),
       ("draw_get_font", .font), ("keyboard_check", .boolean),
         ("keyboard_check_pressed", .boolean),
       ("keyboard_check_released", .boolean), ("keyboard_check_direct", .boolean),
       ("sprite_exists", .boolean), ("place_meeting", .boolean), ("merge_color", .color),
       ("merge_colour", .color)]
    vars := [("sprite_index", .sprite), ("mask_index", .sprite), ("object_index", .object),
       ("room", .room), ("image_blend", .color), ("path_index", .path),
       ("os_type", .osType), ("visible", .boolean), ("solid", .boolean),
       ("persistent", .boolean)] }

end Rules

def integer? : Node → Option Int
  | .int16 value _ => some value.toInt
  | .int32 value => some value.toInt
  | .int64 value =>
    if -2147483648 ≤ value && value ≤ 2147483647 then some value.toInt else none
  | .double value => do
    let n ← value.toInt?
    if n.natAbs ≤ 2147483647 then some n else none
  | _ => none

def isLiteral (node : Node) : RuleLiteral → Bool
  | .boolean expected =>
    match node with
    | .boolean value => value == expected
    | _ => integer? node == some (if expected then 1 else 0)
  | .text expected =>
    match node with
    | .string text | .constant text => text == expected
    | _ => false
  | .number expected =>
    (integer? node).any fun value => (Double.ofInt value).equals expected

def Alternative.holds (arena : Arena) (args : List NodeId) (alternative : Alternative) :
    Bool :=
  match alternative.condition with
  | some (position, expected) =>
    args[position]?.any fun arg => isLiteral (arena.node arg) expected
  | none => true

def RuleSet.argumentRoles? (arena : Arena) (name : String) (args : List NodeId)
    (rules : RuleSet) : Option (List Role) :=
  let hit := (rules.alternatives.lookup name).bind (·.find? (·.holds arena args))
  match hit with
  | some alternative => some alternative.roles
  | none => rules.arguments.lookup name

def knownRole? (layers : List RuleSet) (arena : Arena) (id : NodeId) : Option Role :=
  match arena.node id with
  | .var v => layers.findSome? (·.vars.lookup v.name)
  | .call name _ => layers.findSome? (·.returns.lookup name)
  | _ => none

def spellAs (role : Role) (assets : AssetTable) : Nat → Arena → NodeId → Arena
  | 0, arena, _ => arena
  | fuel + 1, arena, id =>
    match arena.node id with
    | .conditional _ yes no =>
      spellAs role assets fuel (spellAs role assets fuel arena yes) no
    | node =>
      match (integer? node).bind (role.spelling? · assets) with
      | some name => arena.replace id (.constant name)
      | none => arena

/-- Writes the numbers right below a node in their roles; `function` is the
function that the node is in. -/
def spellBelow (layers : List RuleSet) (assets : AssetTable) (function : Option String)
    (arena : Arena) (id : NodeId) : Arena :=
  let spell (role : Role) (arena : Arena) (id : NodeId) : Arena :=
    spellAs role assets (arena.size + 1) arena id
  match arena.node id with
  | .call name args =>
    match layers.findSome? (·.argumentRoles? arena name args) with
    | some roles =>
      (args.zip roles).foldl (fun arena (arg, role) => spell role arena arg) arena
    | none => arena
  | .binary _ (some _) left right _ _ =>
    match knownRole? layers arena left with
    | some role => spell role arena right
    | none =>
      match knownRole? layers arena right with
      | some role => spell role arena left
      | none => arena
  | .assign assignment =>
    match assignment.kind, knownRole? layers arena assignment.target with
    | .plain, some role => spell role arena assignment.value
    | _, _ => arena
  | .switch value items =>
    match knownRole? layers arena value with
    | some role =>
      items.foldl (fun arena item =>
        match arena.node item with
        | .switchCase label => spell role arena label
        | _ => arena) arena
    | none => arena
  | .returnValue value =>
    match function.bind fun name => layers.findSome? (·.returns.lookup name) with
    | some role => spell role arena value
    | none => arena
  | _ => arena

def spell (rules : Rules) (entry : String) (assets : AssetTable) (outline : Outline) :
    Outline :=
  let layers := rules.layers entry
  let enter (arena : Arena) (item : NodeId × Option String) :
      Arena × List (NodeId × Option String) :=
    let (id, function) := item
    let arena := spellBelow layers assets function arena id
    let inner :=
      match arena.node id with
      | .function f => some f.name
      | _ => function
    (arena, (arena.children id).map fun child => (child, inner))
  let start := [(outline.root, EntryName.script? entry)]
  { outline with
    nodes := (walk (·.1) enter (walkBound outline.nodes) start [] outline.nodes).2 }

end GameScript.Outline
