import Sailbot.Lib.Reflection

/-!
# The messages of the queues

The message types that a `LogEntry` (`util/msg.proto`) is made of, from all `.proto` files
that it imports. Every queue has a member of its name in `LogEntry`.

Numbers, default values and the numbers of the enums are left out: nothing here depends on
them.
-/

namespace Sailbot.Ui

open Lib

inductive MsgType
  | timestamp | sailCmd | rudderCmd | ballastCmd | headingCmd | heelCmd | waypoint
  | waypointList | obstacles | controlMode | tackerConstants | controllerConstants
  | zeroingConstants | vector3f | vector3d | quaternion | eulerAngles | internalBoatState
  | tackerState | challengeControl | buoy | visionData | searchState | boatState | rigidWingCmd
  | rigidWingFeedback | simDebugMsg | sbus | queueTestMsg | systemTime | vesselHeading
  | rateOfTurn | attitude | timeDate | gnssDop | gnssPositionData | posRapidUpdate
  | cogSogRapidUpdate | windData | analogPot | pwmWrite | debugScamp | ballastState
  | sailbotState | sailbotConn | batteryVoltage | canMaster | pingMsg | pongMsg
  | connectionStatus | logEntry
  deriving DecidableEq, Repr

def optional (type : FieldType MsgType) (name : String) : FieldDescriptor MsgType :=
  ⟨.optional, type, name⟩

def repeated (type : FieldType MsgType) (name : String) : FieldDescriptor MsgType :=
  ⟨.repeated, type, name⟩

def MsgType.fields : MsgType → List (FieldDescriptor MsgType)
  -- `google/protobuf/timestamp.proto`
  | .timestamp => [optional .int64 "seconds", optional .int32 "nanos"]
  -- `control/actuator_cmd.proto`
  | .sailCmd => [optional .float "vel", optional .float "voltage", optional .float "pos"]
  | .rudderCmd => [optional .float "vel", optional .float "pos"]
  | .ballastCmd => [optional .float "vel", optional .float "voltage"]
  | .headingCmd => [optional .float "heading", optional .float "extra_sail"]
  | .heelCmd => [optional .float "heel"]
  | .waypoint => [optional .double "x", optional .double "y", optional .float "theta"]
  | .waypointList =>
    [repeated (.message .waypoint) "points", optional .bool "restart",
     optional .bool "defined_start", optional .bool "repeat"]
  | .obstacles => [repeated (.message .waypointList) "polygons"]
  | .controlMode =>
    [optional .enum "winch_mode", optional .enum "tacker", optional .enum "rudder_mode",
     optional .enum "rigid_mode", optional .enum "ballast_mode"]
  | .tackerConstants =>
    [optional .float "close_haul_angle", optional .float "in_irons_cost",
     optional .float "near_goal_cost", optional .float "hysteresis_cost",
     optional .float "diff_yaw_cost", optional .float "momentum_cost",
     optional .float "tacking_cost"]
  | .controllerConstants =>
    [optional .float "max_rudder", optional .float "rudder_kp", optional .float "winch_kp",
     optional .float "sail_heel_k", optional .float "qf", optional .float "rudder_ki",
     optional .float "ballast_arm_kp", optional .float "ballast_arm_kd",
     optional .float "ballast_arm_kff_arm", optional .float "ballast_arm_kff_heel",
     optional .float "ballast_heel_kp", optional .float "ballast_heel_ki",
     optional .float "ballast_heel_kd", optional .float "ballast_heel_kff_goal",
     optional .float "nominal_heel", optional .float "rigid_port_servo_pos",
     optional .float "rigid_starboard_servo_pos"]
  | .zeroingConstants =>
    [optional .int32 "rudder_zero", optional .int32 "winch_0_pot",
     optional .int32 "winch_90_pot", optional .double "ballast_zero",
     optional .double "winch_out_angle", optional .bool "write_constants"]
  | .vector3f => [optional .float "x", optional .float "y", optional .float "z"]
  | .vector3d => [optional .double "x", optional .double "y", optional .double "z"]
  | .quaternion =>
    [optional .float "w", optional .float "x", optional .float "y", optional .float "z"]
  | .eulerAngles => [optional .float "roll", optional .float "pitch", optional .float "yaw"]
  | .internalBoatState =>
    [optional .float "sail", optional .float "rudder", optional .float "ballast",
     optional .float "saildot", optional .float "rudderdot", optional .float "ballastdot"]
  | .tackerState =>
    [optional .bool "done", optional .int32 "last_waypoint", optional .bool "near_waypoint"]
  | .challengeControl => [optional .enum "challenge"]
  | .buoy => [optional .float "x", optional .float "y", optional .float "radius"]
  | .visionData =>
    [optional .float "heading", optional .float "confidence", repeated (.message .buoy) "buoys"]
  | .searchState => [optional .enum "state"]
  | .boatState =>
    [optional (.message .vector3f) "pos_float", optional (.message .vector3d) "pos",
     optional (.message .quaternion) "orientation", optional (.message .vector3f) "vel",
     optional (.message .vector3f) "omega", optional (.message .internalBoatState) "internal",
     optional (.message .eulerAngles) "euler"]
  -- `rigid_wing/rigid_wing.proto`
  | .rigidWingCmd =>
    [optional .enum "state", optional .float "heel", optional .float "max_heel",
     optional .int32 "servo_pos"]
  | .rigidWingFeedback =>
    [optional .float "angle_of_attack", optional .int32 "servo_pos", optional .float "battery"]
  -- `sim/sim_debug.proto`
  | .simDebugMsg =>
    [optional (.message .vector3f) "fs", optional (.message .vector3f) "fr",
     optional (.message .vector3f) "fk", optional (.message .vector3f) "fh",
     optional (.message .vector3f) "fnet", optional (.message .vector3f) "taus",
     optional (.message .vector3f) "taur", optional (.message .vector3f) "tauk",
     optional (.message .vector3f) "tauh", optional (.message .vector3f) "tauright",
     optional (.message .vector3f) "taunet"]
  -- `sensor/sbus.proto`
  | .sbus =>
    [repeated .int32 "channel", optional .bool "ch17", optional .bool "ch18",
     optional .bool "frame_lost", optional .bool "failsafe"]
  -- `ipc/queue_test_msg.proto`
  | .queueTestMsg => [optional .float "foo"]
  -- `can/can.proto`
  | .systemTime => [optional .uint32 "SID", optional .uint32 "date", optional .uint32 "time"]
  | .vesselHeading =>
    [optional .uint32 "SID", optional .float "heading", optional .float "deviation",
     optional .float "variation", optional .enum "reference"]
  | .rateOfTurn => [optional .uint32 "SID", optional .float "rate"]
  | .attitude =>
    [optional .uint32 "SID", optional .float "yaw", optional .float "pitch",
     optional .float "roll"]
  | .timeDate => [optional .uint32 "day", optional .uint32 "time", optional .int32 "localoffset"]
  | .gnssDop =>
    [optional .uint32 "SID", optional .enum "desired_mode", optional .enum "actual_mode",
     optional .uint32 "reserved", optional .float "hdop", optional .float "vdop",
     optional .float "tdop"]
  | .gnssPositionData =>
    [optional .uint32 "SID", optional .uint32 "day", optional .uint32 "time",
     optional .double "latitude", optional .double "longitude", optional .double "altitude",
     optional .enum "gnss_type", optional .enum "gnss_method", optional .enum "gnss_integrity",
     optional .uint32 "reserved", optional .uint32 "n_satellites", optional .float "HDOP",
     optional .float "PDOP", optional .float "geoidal_separation",
     optional .uint32 "n_reference_stations", optional .enum "reference_station_type",
     optional .uint32 "reference_station_id", optional .float "dgnss_correction_age"]
  | .posRapidUpdate => [optional .double "lat", optional .double "lon"]
  | .cogSogRapidUpdate =>
    [optional .uint32 "SID", optional .enum "cog_reference", optional .uint32 "reserved",
     optional .float "COG", optional .float "SOG", optional .uint32 "reserved2"]
  | .windData =>
    [optional .uint32 "SID", optional .float "wind_speed", optional .float "wind_angle",
     optional .enum "reference"]
  | .analogPot => [optional .uint32 "val", optional .uint32 "current"]
  | .pwmWrite => [optional .uint32 "winch", optional .uint32 "rudder", optional .uint32 "ballast"]
  | .debugScamp => [optional .uint32 "data1", optional .uint32 "data2"]
  | .ballastState => [optional .float "heel", optional .float "ballast"]
  | .sailbotState =>
    [optional .enum "rigid", optional .enum "ballast", optional .enum "winch",
     optional .enum "rudder", optional .enum "tacker"]
  | .sailbotConn =>
    [optional .enum "rigid_conn", optional .enum "radio_conn", optional .enum "wifi_conn",
     optional .enum "jetson_conn", optional .enum "ui_conn"]
  | .batteryVoltage => [optional .float "voltage"]
  | .canMaster =>
    [optional .bool "outgoing", optional (.message .systemTime) "sys_time",
     optional (.message .vesselHeading) "heading", optional (.message .rateOfTurn) "rate_turn",
     optional (.message .attitude) "attitude",
     optional (.message .posRapidUpdate) "pos_rapid_update",
     optional (.message .cogSogRapidUpdate) "cog_rapid_update",
     optional (.message .gnssPositionData) "gnss_pos",
     optional (.message .timeDate) "time_and_date", optional (.message .gnssDop) "gnss_dop",
     optional (.message .windData) "wind_data", optional (.message .analogPot) "analog_pot",
     optional (.message .pwmWrite) "pwm_write", optional (.message .debugScamp) "debug_scamp1",
     optional (.message .debugScamp) "debug_scamp2",
     optional (.message .ballastState) "ballast_state",
     optional (.message .sailbotState) "sailbot_state",
     optional (.message .sailbotConn) "sailbot_conn",
     optional (.message .batteryVoltage) "battery_voltage"]
  -- `util/msg.proto`
  | .pingMsg => [optional .float "a"]
  | .pongMsg => [optional .float "b"]
  | .connectionStatus => [optional .bool "connected"]
  | .logEntry =>
    [optional (.message .timestamp) "time", optional (.message .boatState) "boat_state",
     optional (.message .sailCmd) "sail_cmd", optional (.message .rudderCmd) "rudder_cmd",
     optional (.message .vector3f) "wind", optional (.message .headingCmd) "heading_cmd",
     optional (.message .waypointList) "waypoints",
     optional (.message .ballastCmd) "ballast_cmd",
     optional (.message .rigidWingCmd) "rigid_wing_cmd",
     optional (.message .rigidWingFeedback) "rigid_wing_feedback",
     optional (.message .connectionStatus) "connection_status",
     optional (.message .controlMode) "control_mode", optional (.message .vector3f) "true_wind",
     optional (.message .sailCmd) "manual_sail_cmd",
     optional (.message .rudderCmd) "manual_rudder_cmd",
     optional (.message .tackerState) "tacker_state",
     optional (.message .challengeControl) "challenge_control",
     optional (.message .visionData) "vision_data",
     optional (.message .ballastCmd) "manual_ballast_cmd",
     optional (.message .waypointList) "planner_points",
     optional (.message .obstacles) "planner_obstacles", optional (.message .heelCmd) "heel_cmd",
     optional (.message .searchState) "search_state",
     optional (.message .tackerConstants) "tacker_consts",
     optional (.message .controllerConstants) "control_consts",
     optional (.message .zeroingConstants) "zeroing_consts", optional (.message .pingMsg) "ping",
     optional (.message .pongMsg) "pong", optional (.message .queueTestMsg) "test_queue",
     optional (.message .simDebugMsg) "sim_debug",
     optional (.message .internalBoatState) "internal_state",
     optional (.message .boatState) "sim_true_boat_state",
     optional (.message .vector3f) "sim_true_wind", optional (.message .vector3f) "sim_set_wind",
     optional (.message .boatState) "orig_boat_state",
     optional (.message .headingCmd) "orig_heading_cmd", optional (.message .sbus) "sbus_value",
     optional (.message .canMaster) "can126992", optional (.message .canMaster) "can127250",
     optional (.message .canMaster) "can127251", optional (.message .canMaster) "can127257",
     optional (.message .canMaster) "can129025", optional (.message .canMaster) "can129026",
     optional (.message .canMaster) "can129029", optional (.message .canMaster) "can129033",
     optional (.message .canMaster) "can129539", optional (.message .canMaster) "can130306",
     optional (.message .canMaster) "can65281", optional (.message .canMaster) "can65282",
     optional (.message .canMaster) "can65283", optional (.message .canMaster) "can65284",
     optional (.message .canMaster) "can65285", optional (.message .canMaster) "can65296",
     optional (.message .canMaster) "can65297", optional (.message .canMaster) "can65312"]

def schema : Schema MsgType := ⟨MsgType.fields⟩

/-- The members of a `LogEntry` are the queues: singular messages, with names in lower
case and without dots. -/
theorem logEntry_members : ∀ f ∈ MsgType.fields .logEntry,
    f.Singular ∧ (∃ u, f.type = .message u) ∧ '.' ∉ f.name.toList ∧
      f.name.toList.map Char.toLower = f.name.toList := by
  decide +kernel

end Sailbot.Ui
