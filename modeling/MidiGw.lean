import MidiGw.Runs
import MidiGw.Pipes
import MidiGw.CNumber
import MidiGw.PyInt
import MidiGw.Getopt
import MidiGw.Midi
import MidiGw.Slot
import MidiGw.Rollover
import MidiGw.Cmdline
import MidiGw.Options
import MidiGw.Dump
import MidiGw.Merge
import MidiGw.Blocks
import MidiGw.Memory
import MidiGw.Ownership
import MidiGw.Stop
import MidiGw.Setup
import MidiGw.Tempo
import MidiGw.Termios
import MidiGw.Wire
import MidiGw.Backpressure
import MidiGw.Gateway
import MidiGw.Handlers
import MidiGw.Serial
import MidiGw.Routes
import MidiGw.CcRoute
import MidiGw.Ends
import MidiGw.Prints
import MidiGw.Unread
import MidiGw.Diagnostics
import MidiGw.Pace
import MidiGw.Simulation
import MidiGw.MidiSo
import MidiGw.Spawned
import MidiGw.System
import MidiGw.Lineage
import MidiGw.Delivery
import MidiGw.Line
import MidiGw.PyGetopt
import MidiGw.Startup
import MidiGw.Drift
import MidiGw.DriftMain
import MidiGw.ClockLoop
import MidiGw.PollLoop
import MidiGw.Wrap
