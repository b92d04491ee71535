/-! Named constants.  Where two names of a table share a value, the first one is
the one to show. -/

namespace GameScript.Builtin.Constants

def colors : List (String × Int) :=
  [("c_aqua", 16776960), ("c_black", 0), ("c_blue", 16711680), ("c_dkgray", 4210752),
    ("c_fuchsia", 16711935), ("c_gray", 8421504), ("c_green", 32768), ("c_lime", 65280),
    ("c_ltgray", 12632256), ("c_maroon", 128), ("c_navy", 8388608), ("c_olive", 32896),
    ("c_purple", 8388736), ("c_red", 255), ("c_silver", 12632256), ("c_teal", 8421376),
    ("c_white", 16777215), ("c_yellow", 65535), ("c_orange", 4235519)]

def keyboard : List (String × Int) :=
  [("vk_nokey", 0), ("vk_anykey", 1), ("vk_backspace", 8), ("vk_tab", 9), ("vk_enter", 13),
    ("vk_shift", 16), ("vk_control", 17), ("vk_alt", 18), ("vk_pause", 19),
    ("vk_escape", 27), ("vk_space", 32), ("vk_pageup", 33), ("vk_pagedown", 34),
    ("vk_end", 35), ("vk_home", 36), ("vk_left", 37), ("vk_up", 38), ("vk_right", 39),
    ("vk_down", 40), ("vk_printscreen", 44), ("vk_insert", 45), ("vk_delete", 46),
    ("vk_numpad0", 96), ("vk_numpad1", 97), ("vk_numpad2", 98), ("vk_numpad3", 99),
    ("vk_numpad4", 100), ("vk_numpad5", 101), ("vk_numpad6", 102), ("vk_numpad7", 103),
    ("vk_numpad8", 104), ("vk_numpad9", 105), ("vk_multiply", 106), ("vk_add", 107),
    ("vk_subtract", 109), ("vk_decimal", 110), ("vk_divide", 111), ("vk_f1", 112),
    ("vk_f2", 113), ("vk_f3", 114), ("vk_f4", 115), ("vk_f5", 116), ("vk_f6", 117),
    ("vk_f7", 118), ("vk_f8", 119), ("vk_f9", 120), ("vk_f10", 121), ("vk_f11", 122),
    ("vk_f12", 123), ("vk_lshift", 160), ("vk_rshift", 161), ("vk_lcontrol", 162),
    ("vk_rcontrol", 163), ("vk_lalt", 164), ("vk_ralt", 165)]

def pathEndActions : List (String × Int) :=
  [("path_action_stop", 0), ("path_action_restart", 1), ("path_action_continue", 2),
    ("path_action_reverse", 3)]

def gamepad : List (String × Int) :=
  [("gp_face1", 32769), ("gp_face2", 32770), ("gp_face3", 32771), ("gp_face4", 32772),
    ("gp_shoulderl", 32773), ("gp_shoulderr", 32774), ("gp_shoulderlb", 32775),
    ("gp_shoulderrb", 32776), ("gp_select", 32777), ("gp_start", 32778),
    ("gp_stickl", 32779), ("gp_stickr", 32780), ("gp_padu", 32781), ("gp_padd", 32782),
    ("gp_padl", 32783), ("gp_padr", 32784), ("gp_axislh", 32785), ("gp_axislv", 32786),
    ("gp_axisrh", 32787), ("gp_axisrv", 32788)]

def osTypes : List (String × Int) :=
  [("os_unknown", -1), ("os_windows", 0), ("os_macosx", 1), ("os_psp", 2), ("os_ios", 3),
    ("os_android", 4), ("os_symbian", 5), ("os_linux", 6), ("os_winphone", 7),
    ("os_tizen", 8), ("os_win8native", 9), ("os_wiiu", 10), ("os_3ds", 11),
    ("os_psvita", 12), ("os_bb10", 13), ("os_ps4", 14), ("os_xboxone", 15), ("os_ps3", 16),
    ("os_xbox360", 17), ("os_uwp", 18), ("os_tvos", 20), ("os_switch", 21), ("os_ps5", 22),
    ("os_xboxseriesxs", 23), ("os_operagx", 24)]

def allTables : List (List (String × Int)) :=
  [colors, keyboard, pathEndActions, gamepad, osTypes]

def nameOf? (table : List (String × Int)) (value : Int) : Option String :=
  (table.find? (·.2 == value)).map (·.1)

end GameScript.Builtin.Constants
