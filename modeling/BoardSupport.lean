import BoardSupport.Address
import BoardSupport.Boot.Application
import BoardSupport.Bus
import BoardSupport.Bus.Trace
import BoardSupport.Bytes
import BoardSupport.Config.Block
import BoardSupport.Config.CpuSet
import BoardSupport.Config.Error
import BoardSupport.Config.Header
import BoardSupport.Config.Session
import BoardSupport.Config.Store
import BoardSupport.Device.Bench
import BoardSupport.Device.Memory
import BoardSupport.Device.RegisterFile
import BoardSupport.Device.Simulated
import BoardSupport.Firmware.Guid
import BoardSupport.Firmware.Simulated
import BoardSupport.Firmware.Status
import BoardSupport.Firmware.Trace
import BoardSupport.Firmware.Variables
import BoardSupport.Flash.Controller
import BoardSupport.Flash.Error
import BoardSupport.Flash.Registers
import BoardSupport.Flash.Service
import BoardSupport.Flash.Transfer
import BoardSupport.I2c.Controller
import BoardSupport.I2c.Divisors
import BoardSupport.I2c.Error
import BoardSupport.I2c.Install
import BoardSupport.I2c.Registers
import BoardSupport.I2c.Service
import BoardSupport.Log
import BoardSupport.Program
import BoardSupport.Proofs.Boot.Logging
import BoardSupport.Proofs.Boot.Startup
import BoardSupport.Proofs.Bus.Accesses
import BoardSupport.Proofs.Bus.Polling
import BoardSupport.Proofs.Bus.Waiting
import BoardSupport.Proofs.Config.Addressing
import BoardSupport.Proofs.Config.Atomicity
import BoardSupport.Proofs.Config.Blocks
import BoardSupport.Proofs.Config.Coherence
import BoardSupport.Proofs.Config.Decoding
import BoardSupport.Proofs.Config.Grammar
import BoardSupport.Proofs.Config.Image
import BoardSupport.Proofs.Config.Loading
import BoardSupport.Proofs.Config.Operations
import BoardSupport.Proofs.Config.Provided
import BoardSupport.Proofs.Config.Request
import BoardSupport.Proofs.Config.Route
import BoardSupport.Proofs.Config.Variable
import BoardSupport.Proofs.Device.Bench
import BoardSupport.Proofs.Device.Memory
import BoardSupport.Proofs.Device.Simulated
import BoardSupport.Proofs.Firmware.Honest
import BoardSupport.Proofs.Flash.Bursts
import BoardSupport.Proofs.Flash.ClockFormat
import BoardSupport.Proofs.Flash.Fifo
import BoardSupport.Proofs.Flash.Framing
import BoardSupport.Proofs.Flash.Isolation
import BoardSupport.Proofs.Flash.Read
import BoardSupport.Proofs.Flash.Received
import BoardSupport.Proofs.Flash.Sent
import BoardSupport.Proofs.Flash.Transferring
import BoardSupport.Proofs.Flash.View
import BoardSupport.Proofs.Flash.Waits
import BoardSupport.Proofs.Flash.Writes
import BoardSupport.Proofs.I2c.BringUp
import BoardSupport.Proofs.I2c.BusClock
import BoardSupport.Proofs.I2c.Divisors
import BoardSupport.Proofs.I2c.Fastest
import BoardSupport.Proofs.I2c.Orderly
import BoardSupport.Proofs.I2c.Probe
import BoardSupport.Proofs.I2c.Search
import BoardSupport.Proofs.I2c.Start
import BoardSupport.Proofs.I2c.View
import BoardSupport.Proofs.Program.Conversation
import BoardSupport.Proofs.Program.Interpret
import BoardSupport.Proofs.Program.Keeps
import BoardSupport.Proofs.Program.Leads
import BoardSupport.Proofs.Program.Sessions
import BoardSupport.Proofs.Region
import BoardSupport.Proofs.Register.Field
import BoardSupport.Proofs.Serial.Divisor
import BoardSupport.Proofs.Serial.Fifo
import BoardSupport.Proofs.Serial.Installing
import BoardSupport.Proofs.Serial.Logging
import BoardSupport.Proofs.Serial.Sending
import BoardSupport.Proofs.Splice
import BoardSupport.Proofs.Text.Digits
import BoardSupport.Proofs.Text.Fields
import BoardSupport.Proofs.Text.Hex
import BoardSupport.Proofs.Text.LetterCase
import BoardSupport.Proofs.Text.Numeral
import BoardSupport.Proofs.Timer.Expiry
import BoardSupport.Proofs.Timer.Harts
import BoardSupport.Proofs.Timer.Registers
import BoardSupport.Region
import BoardSupport.Register.Field
import BoardSupport.Serial.Logger
import BoardSupport.Serial.Registers
import BoardSupport.Serial.Service
import BoardSupport.Serial.Uart
import BoardSupport.Service
import BoardSupport.Text.Fields
import BoardSupport.Text.Hex
import BoardSupport.Timer.Clint
import BoardSupport.Timer.Hart
import BoardSupport.Timer.Service
import BoardSupport.Proofs.Device.Bench
