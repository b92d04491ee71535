/-! Names that the runtime provides: functions with their number of arguments,
variables with the permissions to write and to read them. -/

namespace GameScript.Builtin.Catalogue

/-- Functions called by emitted code only; `none` takes any number of arguments. -/
def internalFunctions : List (String × Option Nat) :=
  [("@@NewGMLArray@@", none), ("@@NewGMLObject@@", none), ("@@GetInstance@@", some 1),
    ("@@This@@", some 0), ("@@Other@@", some 0), ("@@Global@@", some 0),
    ("@@try_hook@@", some 2), ("@@try_unhook@@", some 0), ("@@finish_catch@@", some 0),
    ("@@finish_finally@@", some 0), ("@@throw@@", some 1), ("method", some 2)]

/-- Functions of the runtime; `none` takes any number of arguments. -/
def functions : List (String × Option Nat) :=
  [("show_debug_message", some 1), ("show_message", some 1), ("game_end", some 0),
    ("game_restart", some 0), ("event_inherited", some 0), ("event_user", some 1),
    ("script_execute", none), ("abs", some 1), ("sign", some 1), ("round", some 1),
    ("floor", some 1), ("ceil", some 1), ("frac", some 1), ("sqrt", some 1),
    ("sqr", some 1), ("power", some 2), ("exp", some 1), ("ln", some 1), ("sin", some 1),
    ("cos", some 1), ("dsin", some 1), ("dcos", some 1), ("arctan2", some 2),
    ("min", none), ("max", none), ("mean", none), ("clamp", some 3), ("lerp", some 3),
    ("random", some 1), ("irandom", some 1), ("random_range", some 2),
    ("irandom_range", some 2), ("randomize", some 0), ("choose", none),
    ("point_distance", some 4), ("point_direction", some 4), ("lengthdir_x", some 2),
    ("lengthdir_y", some 2), ("angle_difference", some 2), ("string", none),
    ("string_length", some 1), ("string_char_at", some 2), ("string_copy", some 3),
    ("string_pos", some 2), ("string_upper", some 1), ("string_lower", some 1),
    ("string_replace_all", some 3), ("real", some 1), ("ord", some 1), ("chr", some 1),
    ("is_string", some 1), ("is_real", some 1), ("is_undefined", some 1),
    ("is_struct", some 1), ("is_method", some 1), ("typeof", some 1),
    ("instance_create", some 3), ("instance_create_depth", some 4),
    ("instance_create_layer", some 4), ("instance_exists", some 1),
    ("instance_destroy", none), ("instance_number", some 1), ("instance_find", some 2),
    ("instance_nearest", some 3), ("instance_furthest", some 3),
    ("instance_place", some 3), ("instance_position", some 3), ("instance_change", some 2),
    ("instance_copy", some 1), ("instance_activate_object", some 1),
    ("instance_deactivate_object", some 1), ("instance_deactivate_all", some 1),
    ("place_meeting", some 3), ("place_free", some 2), ("position_meeting", some 3),
    ("collision_point", some 5), ("collision_line", some 7),
    ("collision_rectangle", some 7), ("collision_circle", some 6),
    ("distance_to_object", some 1), ("distance_to_point", some 2),
    ("move_towards_point", some 3), ("motion_set", some 2), ("draw_self", some 0),
    ("draw_sprite", some 4), ("draw_sprite_ext", some 9), ("draw_sprite_part", some 8),
    ("draw_sprite_stretched", some 6), ("draw_text", some 3), ("draw_text_ext", some 5),
    ("draw_text_color", some 8), ("draw_text_colour", some 8), ("draw_rectangle", some 5),
    ("draw_circle", some 4), ("draw_line", some 4), ("draw_set_color", some 1),
    ("draw_set_colour", some 1), ("draw_get_color", some 0), ("draw_get_colour", some 0),
    ("draw_set_alpha", some 1), ("draw_set_font", some 1), ("draw_get_font", some 0),
    ("draw_set_halign", some 1), ("draw_set_valign", some 1), ("merge_color", some 3),
    ("merge_colour", some 3), ("make_color_rgb", some 3), ("make_colour_rgb", some 3),
    ("sprite_exists", some 1), ("sprite_get_name", some 1), ("sprite_get_number", some 1),
    ("sprite_get_width", some 1), ("sprite_get_height", some 1),
    ("sprite_get_xoffset", some 1), ("sprite_get_yoffset", some 1),
    ("sprite_set_offset", some 3), ("sprite_delete", some 1), ("room_goto", some 1),
    ("room_goto_next", some 0), ("room_goto_previous", some 0), ("room_restart", some 0),
    ("keyboard_check", some 1), ("keyboard_check_pressed", some 1),
    ("keyboard_check_released", some 1), ("keyboard_check_direct", some 1),
    ("keyboard_clear", some 1), ("mouse_check_button", some 1),
    ("mouse_check_button_pressed", some 1), ("gamepad_is_connected", some 1),
    ("gamepad_button_check", some 2), ("gamepad_button_check_pressed", some 2),
    ("gamepad_button_check_released", some 2), ("gamepad_axis_value", some 2),
    ("audio_play_sound", some 3), ("audio_stop_sound", some 1), ("audio_stop_all", some 0),
    ("audio_is_playing", some 1), ("audio_pause_sound", some 1),
    ("audio_resume_sound", some 1), ("audio_sound_gain", some 3),
    ("audio_sound_pitch", some 2), ("audio_exists", some 1), ("path_start", some 4),
    ("path_end", some 0), ("path_exists", some 1), ("path_get_length", some 1),
    ("ds_list_create", some 0), ("ds_list_destroy", some 1), ("ds_list_add", none),
    ("ds_list_size", some 1), ("ds_list_find_value", some 2), ("ds_list_set", some 3),
    ("ds_map_create", some 0), ("ds_map_destroy", some 1), ("ds_map_add", some 3),
    ("ds_map_exists", some 2), ("ds_map_find_value", some 2), ("ds_map_set", some 3),
    ("ds_grid_create", some 2), ("ds_grid_get", some 3), ("ds_grid_set", some 4),
    ("array_create", none), ("array_length", some 1), ("array_length_1d", some 1),
    ("array_push", none), ("array_pop", some 1), ("variable_struct_get", some 2),
    ("variable_struct_set", some 3), ("variable_struct_exists", some 2),
    ("variable_instance_get", some 2), ("variable_instance_set", some 3),
    ("variable_global_get", some 1), ("variable_global_set", some 2),
    ("file_exists", some 1), ("get_timer", some 0), ("os_get_language", some 0)]

/-- Global variables: name, may be written, may be read. -/
def globals : List (String × Bool × Bool) :=
  [("room", true, true), ("room_first", false, true), ("room_last", false, true),
    ("room_width", true, true), ("room_height", true, true), ("room_speed", true, true),
    ("score", true, true), ("lives", true, true), ("health", true, true),
    ("fps", false, true), ("fps_real", false, true), ("current_time", false, true),
    ("delta_time", false, true), ("keyboard_key", true, true),
    ("keyboard_lastkey", true, true), ("keyboard_lastchar", true, true),
    ("keyboard_string", true, true), ("mouse_x", false, true), ("mouse_y", false, true),
    ("mouse_button", true, true), ("os_type", false, true), ("os_device", false, true),
    ("debug_mode", false, true), ("instance_count", false, true),
    ("argument_count", false, true), ("working_directory", false, true),
    ("game_id", false, true)]

def globalArrays : List (String × Bool × Bool) :=
  [("view_visible", true, true), ("view_xport", true, true), ("view_yport", true, true),
    ("view_wport", true, true), ("view_hport", true, true), ("view_camera", true, true),
    ("instance_id", false, true)]

def legacyGlobalArrays : List (String × Bool × Bool) :=
  [("view_xview", true, true), ("view_yview", true, true), ("view_wview", true, true),
    ("view_hview", true, true), ("view_angle", true, true), ("view_object", true, true)]

def instanceVariables : List (String × Bool × Bool) :=
  [("x", true, true), ("y", true, true), ("xprevious", true, true),
    ("yprevious", true, true), ("xstart", true, true), ("ystart", true, true),
    ("hspeed", true, true), ("vspeed", true, true), ("speed", true, true),
    ("direction", true, true), ("friction", true, true), ("gravity", true, true),
    ("gravity_direction", true, true), ("image_index", true, true),
    ("image_speed", true, true), ("image_number", false, true),
    ("image_xscale", true, true), ("image_yscale", true, true),
    ("image_angle", true, true), ("image_alpha", true, true), ("image_blend", true, true),
    ("sprite_index", true, true), ("sprite_width", false, true),
    ("sprite_height", false, true), ("mask_index", true, true), ("depth", true, true),
    ("layer", true, true), ("visible", true, true), ("solid", true, true),
    ("persistent", true, true), ("object_index", false, true), ("id", false, true),
    ("alarm", true, true), ("path_index", false, true), ("path_position", true, true),
    ("path_speed", true, true), ("path_endaction", true, true), ("bbox_left", false, true),
    ("bbox_right", false, true), ("bbox_top", false, true), ("bbox_bottom", false, true)]

end GameScript.Builtin.Catalogue
