import LumiOS.Support.Numerals

/-!
# Sensor — Daemon

The state of sensord, `sensor_enumerate`, and the functions of `reader.c` and `sensord.c` that enable,
disable, read and poll sensors.

A sensor is looked up by its type; the lookup finds the first entry of the type, and there may be
several.  What the files of a device hold is an argument of the functions that read them.
-/

namespace LumiOS.Sensor

open Support

/-! ### sensord_t -/

/-- `sensor_type_t`. -/
inductive SensorType where
  | accel | gyro | magnet | light | proximity | pressure | temperature | humidity | gravity | rotation
  | stepCounter
deriving DecidableEq, Repr

/-- `sensor_info_t`. -/
structure SensorInfo where
  type : SensorType
  name : CStr 64
  iioPath : CStr 128
  active : Bool
  rateHz : Int32
deriving DecidableEq, Repr

/-- `sensor_vec3_t`. -/
structure Vec3 where
  x : Float32
  y : Float32
  z : Float32
deriving Repr

/-- The union `data` of an event, by the member written last. -/
inductive EventData where
  | zero
  | accel (v : Vec3)
  | gyro (v : Vec3)
  | magnet (v : Vec3)
  | light (v : Float32)
  | proximity (v : Float32)
  | pressure (v : Float32)
  | temperature (v : Float32)
  | humidity (v : Float32)
  | steps (v : UInt32)
deriving Repr

/-- `sensor_event_t`. -/
structure SensorEvent where
  type : SensorType
  timestamp : UInt64
  data : EventData
deriving Repr

/-- After `memset`. -/
def SensorEvent.zero : SensorEvent := ⟨.accel, 0, .zero⟩

/-- `SENSOR_MAX_DEVICES`. -/
def sensorMaxDevices : Nat := 16

/-- `sensord_t`, with `sensors` up to `num_sensors`. -/
structure Sensord where
  sensors : List SensorInfo
  num_sensors_le : sensors.length ≤ sensorMaxDevices
  lastEvents : Vector SensorEvent sensorMaxDevices
  running : Bool
  /-- A history of the files written under `/sys/bus/iio`, newest first: the path and the text. -/
  written : List (List UInt8 × List UInt8)

/-! ### enumerate.c -/

/-- What `sensor_enumerate` finds under `/sys/bus/iio/devices`: the entries of the directory, if it
opens, and the contents of the files that open. -/
structure Sysfs where
  entries : Option (List (List UInt8))
  file : List UInt8 → Option (List UInt8)

/-- `snprintf(path, sizeof(path), "%s/<file>", iio_path)` for a `char path[256]`. -/
def pathOf (iioPath : CStr 128) (file : String) : List UInt8 :=
  snprintf 256 (iioPath.bytes ++ ascii "/" ++ ascii file)

/-- The files `detect_type` tries, in this order. -/
def probes : List (String × SensorType) :=
  [("in_accel_x_raw", .accel), ("in_anglvel_x_raw", .gyro), ("in_magn_x_raw", .magnet),
    ("in_illuminance_raw", .light), ("in_proximity_raw", .proximity), ("in_pressure_raw", .pressure),
    ("in_temp_raw", .temperature), ("in_humidityrelative_raw", .humidity),
    ("in_steps_input", .stepCounter)]

/-- The words `detect_type` looks for in the name of the device. -/
def nameHints : List (String × SensorType) :=
  [("accel", .accel), ("gyro", .gyro), ("magn", .magnet), ("light", .light), ("prox", .proximity)]

/-- `fgets` of the first line of a file into a buffer of `n + 1` bytes. -/
def firstLine (n : Nat) (content : List UInt8) : Option (List UInt8) :=
  if content = [] then none else some (cstring (fgets n content).1)

def detectType (sysfs : Sysfs) (iioPath : CStr 128) : SensorType :=
  match probes.find? fun p => (sysfs.file (pathOf iioPath p.1)).isSome with
  | some p => p.2
  | none =>
    match (sysfs.file (pathOf iioPath "name")).bind (firstLine 63) with
    | none => .accel
    | some buf =>
      match nameHints.find? fun p => (strstr (ascii p.1) buf).isSome with
      | some p => p.2
      | none => .accel

/-- The entry `sensor_enumerate` makes for a device. -/
def sensorOf (sysfs : Sysfs) (dName : List UInt8) : SensorInfo :=
  let iioPath : CStr 128 := .cut CStr.pos_128 (ascii "/sys/bus/iio/devices/" ++ dName)
  { type := detectType sysfs iioPath
    name :=
      match sysfs.file (pathOf iioPath "name") with
      | some content =>
        .cut CStr.pos_64 (((firstLine 63 content).getD []).takeWhile (· ≠ newline))
      | none => .cut CStr.pos_64 dName
    iioPath := iioPath
    active := false
    rateHz := 0 }

/-- `strncmp(ent->d_name, "iio:device", 10) == 0`. -/
def isIioDevice (dName : List UInt8) : Bool := (ascii "iio:device").isPrefixOf dName

def sensorEnumerate (sysfs : Sysfs) (max : Nat) : List SensorInfo :=
  match sysfs.entries with
  | none => []
  | some entries => ((entries.filter isIioDevice).take max).map (sensorOf sysfs)

theorem sensorEnumerate_length_le (sysfs : Sysfs) (max : Nat) :
    (sensorEnumerate sysfs max).length ≤ max := by
  rw [sensorEnumerate]
  cases sysfs.entries with
  | none => exact Nat.zero_le _
  | some entries =>
      rw [List.length_map]
      exact List.length_take_le _ _

/-- `sensord_init`. -/
def sensordInit (sysfs : Sysfs) : Sensord where
  sensors := sensorEnumerate sysfs sensorMaxDevices
  num_sensors_le := sensorEnumerate_length_le _ _
  lastEvents := Vector.replicate _ .zero
  running := true
  written := []

/-! ### reader.c -/

namespace Sensord

/-- `find_sensor`. -/
def findSensor (s : Sensord) (type : SensorType) : Option (Fin s.sensors.length) :=
  s.sensors.findFinIdx? (·.type = type)

/-- A write through a pointer into the table. -/
def update (s : Sensord) (si : Nat) (f : SensorInfo → SensorInfo) : Sensord :=
  { s with
    sensors := s.sensors.modify si f
    num_sensors_le := by
      rw [List.length_modify]
      exact s.num_sensors_le }

/-- A file is written, if it opens. -/
def writeFile (s : Sensord) (opens : List UInt8 → Bool) (path text : List UInt8) : Sensord :=
  if opens path then { s with written := (path, text) :: s.written } else s

end Sensord

def sensorEnable (s : Sensord) (type : SensorType) (rateHz : Int32) (opens : List UInt8 → Bool) :
    Int × Sensord :=
  match s.findSensor type with
  | none => (-1, s)
  | some si =>
    let iioPath := s.sensors[si].iioPath
    let s := s.writeFile opens (pathOf iioPath "sampling_frequency") (printInt rateHz)
    let s := s.writeFile opens (pathOf iioPath "buffer/enable") (ascii "1")
    (0, s.update si fun e => { e with active := true, rateHz := rateHz })

def sensorDisable (s : Sensord) (type : SensorType) (opens : List UInt8 → Bool) : Int × Sensord :=
  match s.findSensor type with
  | none => (-1, s)
  | some si =>
    let s := s.writeFile opens (pathOf s.sensors[si].iioPath "buffer/enable") (ascii "0")
    (0, s.update si fun e => { e with active := false, rateHz := 0 })

/-- What a `sensor_read` finds: the numbers in the files that open and hold one, and the time. -/
structure Sample where
  float : List UInt8 → Option Float32
  nowNs : UInt64

/-- `read_iio_float`. -/
def Sample.readIioFloat (sample : Sample) (path : List UInt8) : Float32 := (sample.float path).getD 0

/-- Three axes and the scale of `in_<channel>_scale`, which is 1 where it is 0. -/
def Sample.readVec3 (sample : Sample) (iioPath : CStr 128) (channel : String) : Vec3 :=
  let file (suffix : String) := sample.readIioFloat (pathOf iioPath ("in_" ++ channel ++ suffix))
  let scale := file "_scale"
  let scale := if scale == 0 then 1 else scale
  ⟨file "_x_raw" * scale, file "_y_raw" * scale, file "_z_raw" * scale⟩

/-- One number and the scale of `in_<channel>_scale`, if that is positive. -/
def Sample.readScaled (sample : Sample) (iioPath : CStr 128) (channel : String) : Float32 :=
  let file (suffix : String) := sample.readIioFloat (pathOf iioPath ("in_" ++ channel ++ suffix))
  let scale := file "_scale"
  if scale > 0 then file "_raw" * scale else file "_raw"

/-- The `switch` of `sensor_read`. -/
def Sample.readData (sample : Sample) (iioPath : CStr 128) : SensorType → Option EventData
  | .accel => some (.accel (sample.readVec3 iioPath "accel"))
  | .gyro => some (.gyro (sample.readVec3 iioPath "anglvel"))
  | .magnet => some (.magnet (sample.readVec3 iioPath "magn"))
  | .light => some (.light (sample.readScaled iioPath "illuminance"))
  | .proximity => some (.proximity (sample.readIioFloat (pathOf iioPath "in_proximity_raw")))
  | .pressure => some (.pressure (sample.readScaled iioPath "pressure"))
  | .temperature => some (.temperature (sample.readScaled iioPath "temp"))
  | .humidity => some (.humidity (sample.readIioFloat (pathOf iioPath "in_humidityrelative_raw")))
  | .stepCounter =>
    some (.steps (sample.readIioFloat (pathOf iioPath "in_steps_input")).toUInt32)
  | .gravity | .rotation => none

/-- The loop of `sensor_read` that caches the event with the first entry of its type. -/
def Sensord.cache (s : Sensord) (type : SensorType) (event : SensorEvent) : Sensord :=
  match s.findSensor type with
  | none => s
  | some i =>
    { s with lastEvents := s.lastEvents.set i event (Nat.lt_of_lt_of_le i.isLt s.num_sensors_le) }

/-- `sensor_read`, with what it leaves at `event`. -/
def sensorRead (s : Sensord) (type : SensorType) (event : SensorEvent) (sample : Sample) :
    Int × SensorEvent × Sensord :=
  match s.findSensor type with
  | none => (-1, event, s)
  | some si =>
    let event := { SensorEvent.zero with type := type, timestamp := sample.nowNs }
    match sample.readData s.sensors[si].iioPath type with
    | none => (-1, event, s)
    | some data =>
      let event := { event with data := data }
      (0, event, s.cache type event)

/-- The loop of `sensor_poll`, with `n` entries left from index `i` on and `count` events written. -/
def pollLoop (max : Int) (samples : Nat → Sample) :
    Nat → Nat → Nat → (Nat → SensorEvent) → Sensord → Nat × (Nat → SensorEvent) × Sensord
  | 0, _, count, events, s => (count, events, s)
  | n + 1, i, count, events, s =>
    if (count : Int) < max then
      match s.sensors[i]? with
      | none => (count, events, s)
      | some si =>
        if si.active then
          let (_, event, s) := sensorRead s si.type (events count) (samples i)
          pollLoop max samples n (i + 1) (count + 1) (Function.update events count event) s
        else pollLoop max samples n (i + 1) count events s
    else (count, events, s)

/-- `sensor_poll`, with what it leaves in `events`; the sample for entry `i` is `samples i`. -/
def sensorPoll (s : Sensord) (events : Nat → SensorEvent) (max : Int) (samples : Nat → Sample) :
    Nat × (Nat → SensorEvent) × Sensord :=
  pollLoop max samples s.sensors.length 0 0 events s

/-! ### sensord.c -/

/-- The loop of `sensord_shutdown`, with `n` entries left from index `i` on. -/
def shutdownLoop (opens : List UInt8 → Bool) : Nat → Nat → Sensord → Sensord
  | 0, _, s => s
  | n + 1, i, s =>
    match s.sensors[i]? with
    | none => s
    | some si =>
      shutdownLoop opens n (i + 1) (if si.active then (sensorDisable s si.type opens).2 else s)

def sensordShutdown (s : Sensord) (opens : List UInt8 → Bool) : Sensord :=
  shutdownLoop opens s.sensors.length 0 { s with running := false }

end LumiOS.Sensor
