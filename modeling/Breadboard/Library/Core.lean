import Breadboard.Library.Basic
/-!
# The core library

The library every sketch has without an include: pin input and output, timing, a few
math helpers, the `Serial` port and the pin constants. It is registered under the name
`Arduino`, which can never be removed from a catalog.
-/

namespace Breadboard.Library

/-- The name the core library is registered under. -/
def coreName : String := "Arduino"

/-- A free function of the core library in the given category, with a description. -/
def coreFunction (category name : String) (returnType : ValueType) (parameters : List Parameter)
    (description : Option String) : FunctionDecl :=
  { FunctionDecl.free name returnType parameters with category := some category, description }

/-- A parameter without a default value. -/
def param (name : String) (type : ValueType) : Parameter :=
  { name, type }

/-- The free functions of the core library. -/
def coreFunctions : List FunctionDecl :=
  let io := coreFunction "Digital & Analog I/O"
  let time := coreFunction "Time"
  let math := coreFunction "Math"
  [io "pinMode" .void [param "pin" .uint8, param "mode" .uint8]
      (some "Configures the specified pin to behave as an input or an output"),
    io "digitalWrite" .void [param "pin" .uint8, param "value" .uint8]
      (some "Writes HIGH or LOW to a digital pin"),
    io "digitalRead" .int [param "pin" .uint8] (some "Reads HIGH or LOW from a digital pin"),
    io "analogRead" .int [param "pin" .uint8] (some "Reads the value of an analog pin"),
    io "analogWrite" .void [param "pin" .uint8, param "value" .int]
      (some "Writes a PWM wave to a pin"),
    time "delay" .void [param "ms" .unsignedLong]
      (some "Pauses the program for the given number of milliseconds"),
    time "delayMicroseconds" .void [param "us" .uint16] none,
    time "millis" .unsignedLong []
      (some "Milliseconds since the board began running the current program"),
    time "micros" .unsignedLong [] none,
    math "map" .long [param "value" .long, param "fromLow" .long, param "fromHigh" .long,
      param "toLow" .long, param "toHigh" .long] none,
    math "constrain" .any [param "x" .any, param "a" .any, param "b" .any] none,
    math "random" .long [param "max" .long] none]

/-- The hardware serial port. -/
def serialClass : ClassDecl :=
  { name := "Serial",
    methods :=
      [FunctionDecl.method "Serial" "begin" .void [{ param "baud" .long with
                                                      defaultValue := some "9600" }],
        FunctionDecl.method "Serial" "print" .uint32 [param "value" .any],
        FunctionDecl.method "Serial" "println" .uint32 [param "value" .any],
        FunctionDecl.method "Serial" "available" .int [],
        FunctionDecl.method "Serial" "read" .int []],
    description := some "Hardware serial port" }

/-- The core library. -/
def core : Library :=
  { name := coreName, displayName := "Arduino Core", includeStatement := "", isCore := true,
    category := "Core", functions := coreFunctions, classes := [serialClass],
    constants := [⟨"HIGH", "1", .int⟩, ⟨"LOW", "0", .int⟩, ⟨"INPUT", "0", .int⟩,
      ⟨"OUTPUT", "1", .int⟩, ⟨"INPUT_PULLUP", "2", .int⟩, ⟨"LED_BUILTIN", "13", .int⟩] }

end Breadboard.Library
