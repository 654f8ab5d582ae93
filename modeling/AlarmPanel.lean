import AlarmPanel.Client.Script
import AlarmPanel.Panel.Service
import AlarmPanel.Tcp.Script
import AlarmPanel.Proofs.Text.Bytes
import AlarmPanel.Proofs.Backoff
import AlarmPanel.Proofs.Frame.RoundTrip
import AlarmPanel.Proofs.Frame.TimeNumbers
import AlarmPanel.Proofs.Frame.Rewriting
import AlarmPanel.Proofs.Frame.Instants
import AlarmPanel.Proofs.Frame.Checksum
import AlarmPanel.Proofs.Payload.Status
import AlarmPanel.Proofs.Payload.System
import AlarmPanel.Proofs.Payload.Refused
import AlarmPanel.Proofs.Event.RoundTrip
import AlarmPanel.Proofs.Alarm.Changes
import AlarmPanel.Proofs.Alarm.Parts
import AlarmPanel.Proofs.Alarm.Mode
import AlarmPanel.Proofs.Alarm.Redelivery
import AlarmPanel.Proofs.Panel.Lockstep
import AlarmPanel.Proofs.Panel.Activity
import AlarmPanel.Proofs.Panel.LateAnswers
import AlarmPanel.Proofs.Panel.Disarming
import AlarmPanel.Proofs.Panel.Snapshot
import AlarmPanel.Proofs.Panel.Outputs
import AlarmPanel.Proofs.Client.Ledger
import AlarmPanel.Proofs.Client.Request
import AlarmPanel.Proofs.Client.Steps
import AlarmPanel.Proofs.Client.Roles
import AlarmPanel.Proofs.Client.Table
import AlarmPanel.Proofs.Client.Correlation
import AlarmPanel.Proofs.Client.Intake
import AlarmPanel.Proofs.Client.Shutdown
import AlarmPanel.Proofs.Client.Delivery
import AlarmPanel.Proofs.Client.Moves
import AlarmPanel.Proofs.Client.Keepalive
import AlarmPanel.Proofs.Client.Lines
import AlarmPanel.Proofs.Client.Outputs
import AlarmPanel.Proofs.Client.Responses
import AlarmPanel.Proofs.Client.Transmission
import AlarmPanel.Proofs.Client.StatusRequests
import AlarmPanel.Proofs.Client.Chronicle
import AlarmPanel.Proofs.Circuit.Line
import AlarmPanel.Proofs.Circuit.Notices
import AlarmPanel.Proofs.Circuit.Announcing
import AlarmPanel.Proofs.Circuit.Dials
import AlarmPanel.Proofs.Circuit.LastNotice
import AlarmPanel.Proofs.Circuit.Places
import AlarmPanel.Proofs.Circuit.HungUp
import AlarmPanel.Proofs.Circuit.StepsLeft
import AlarmPanel.Proofs.Circuit.Refused
import AlarmPanel.Proofs.Circuit.Turns
import AlarmPanel.Proofs.Circuit.Staleness
import AlarmPanel.Proofs.Circuit.Limits
import AlarmPanel.Proofs.Circuit.DialLog
import AlarmPanel.Proofs.Circuit.Redials
import AlarmPanel.Proofs.Circuit.LoneCaller
